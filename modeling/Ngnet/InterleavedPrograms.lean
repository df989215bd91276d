import Mathlib.Data.List.Induction
import Mathlib.Tactic.Common

/-!
# Programs interleaved with the actions of others

A program is a tree of atomic operations on a state that others act on as well. Between any two of
its operations the others take any number of actions. At the operations where it yields it can be
abandoned; however it ends, a cleanup is run behind it.

Which states the program passes through depends on the others. What it does next depends on the
answers to its operations only: a `Protocol` follows these answers, and a program that keeps to a
protocol is checked by recursion on its tree, without a word about the state.
-/

namespace Ngnet.InterleavedPrograms

universe u

/-- Programs over the operations `ω`: one of `ω β` is answered with a `β`. -/
inductive Prog (ω : Type → Type u) (ε α : Type) : Type (max 1 u)
  | done (a : α)
  | fail (error : ε)
  | outOfFuel
  | act {β : Type} (op : ω β) (next : β → Prog ω ε α)

variable {ω : Type → Type u} {ε α β κ σ ι : Type}

namespace Prog

def bind : Prog ω ε α → (α → Prog ω ε β) → Prog ω ε β
  | .done a, f => f a
  | .fail error, _ => .fail error
  | .outOfFuel, _ => .outOfFuel
  | .act op next, f => .act op fun b => (next b).bind f

instance : Monad (Prog ω ε) where
  pure := .done
  bind := bind

end Prog

def perform (op : ω α) : Prog ω ε α := .act op .done

def ofExcept : Except ε α → Prog ω ε α
  | .ok a => .done a
  | .error error => .fail error

/-! ## Protocols -/

/-- What the answers to the operations say about the progress of a program, which operations it may
take then, and which answers they are expected to have. -/
structure Protocol (ω : Type → Type u) (κ : Type) : Type (max 1 u) where
  next : {β : Type} → κ → ω β → β → κ
  allows : {β : Type} → κ → ω β → Prop
  expects : {β : Type} → ω β → β → Prop

/-- On expected answers, the program takes allowed operations only, returns with `Q` and fails with
`E`. -/
def Follows (P : Protocol ω κ) (Q : α → κ → Prop) (E : ε → κ → Prop) : Prog ω ε α → κ → Prop
  | .done a, k => Q a k
  | .fail error, k => E error k
  | .outOfFuel, _ => True
  | .act op next, k => P.allows k op ∧ ∀ b, P.expects op b → Follows P Q E (next b) (P.next k op b)

section Follows
variable {P : Protocol ω κ} {Q : α → κ → Prop} {E : ε → κ → Prop} {k : κ}

@[simp] theorem follows_pure {a : α} : Follows P Q E (pure a : Prog ω ε α) k ↔ Q a k := Iff.rfl

@[simp] theorem follows_fail {error : ε} : Follows P Q E (.fail error : Prog ω ε α) k ↔ E error k := Iff.rfl

@[simp] theorem follows_outOfFuel : Follows P Q E (.outOfFuel : Prog ω ε α) k := True.intro

theorem follows_act {op : ω β} {next : β → Prog ω ε α} : Follows P Q E (.act op next) k ↔
    P.allows k op ∧ ∀ b, P.expects op b → Follows P Q E (next b) (P.next k op b) := Iff.rfl

@[simp] theorem follows_perform {op : ω α} : Follows P Q E (perform op : Prog ω ε α) k ↔
    P.allows k op ∧ ∀ a, P.expects op a → Q a (P.next k op a) := Iff.rfl

@[simp] theorem follows_bind {p : Prog ω ε α} {f : α → Prog ω ε β} {Q : β → κ → Prop} :
    Follows P Q E (p >>= f) k ↔ Follows P (fun a k => Follows P Q E (f a) k) E p k := by
  show Follows P Q E (p.bind f) k ↔ _
  induction p generalizing k with
  | done a => rfl
  | fail error => rfl
  | outOfFuel => rfl
  | act op next ih =>
    rw [Prog.bind, follows_act, follows_act]
    exact and_congr_right fun _ => forall₂_congr fun b _ => ih b

theorem Follows.mono {p : Prog ω ε α} {Q' : α → κ → Prop} {E' : ε → κ → Prop} (h : Follows P Q E p k)
    (hQ : ∀ a k, Q a k → Q' a k) (hE : ∀ error k, E error k → E' error k) : Follows P Q' E' p k := by
  induction p generalizing k with
  | done a => exact hQ a k h
  | fail error => exact hE error k h
  | outOfFuel => exact True.intro
  | act op next ih => exact ⟨h.1, fun b hb => ih b (h.2 b hb)⟩

end Follows

/-! ## Runs -/

/-- What each operation does to the state, in one step. -/
class Atomic (ω : Type → Type u) (σ : Type) where
  apply : {β : Type} → ω β → σ → β × σ

inductive Outcome (ε α : Type)
  | returned (a : α)
  | failed (error : ε)
  | abandoned
  deriving DecidableEq, Repr

/-- How far a program has got. -/
inductive Stage (ω : Type → Type u) (ε α : Type) : Type (max 1 u)
  | running (p : Prog ω ε α)
  | cleaning (outcome : Outcome ε α) (p : Prog ω Empty Unit)
  | over (outcome : Outcome ε α)

namespace Stage

def isOver : Stage ω ε α → Bool
  | .over _ => true
  | _ => false

def hasFailed : Stage ω ε α → Bool
  | .running (.fail _) | .cleaning (.failed _) _ | .over (.failed _) => true
  | _ => false

end Stage

structure Config (ω : Type → Type u) (ε α σ : Type) : Type (max 1 u) where
  stage : Stage ω ε α
  state : σ

/-- A program, the cleanup behind it, the operations at which it yields, and what others do. -/
structure System (ω : Type → Type u) (ε α σ ι : Type) : Type (max 1 u) where
  program : Prog ω ε α
  cleanup : Prog ω Empty Unit
  yields : {β : Type} → ω β → Bool
  act : ι → σ → σ

/-- Who takes the next step. -/
inductive Choice (ι : Type)
  | own
  | abandon
  | other (action : ι)
  deriving DecidableEq, Repr

namespace System
variable [Atomic ω σ] (S : System ω ε α σ ι)

def ownStep : Config ω ε α σ → Config ω ε α σ
  | ⟨.running (.act op next), s⟩ => ⟨.running (next (Atomic.apply op s).1), (Atomic.apply op s).2⟩
  | ⟨.running (.done a), s⟩ => ⟨.cleaning (.returned a) S.cleanup, s⟩
  | ⟨.running (.fail error), s⟩ => ⟨.cleaning (.failed error) S.cleanup, s⟩
  | ⟨.cleaning outcome (.act op next), s⟩ =>
    ⟨.cleaning outcome (next (Atomic.apply op s).1), (Atomic.apply op s).2⟩
  | ⟨.cleaning outcome (.done _), s⟩ => ⟨.over outcome, s⟩
  | c => c

def step (c : Config ω ε α σ) : Choice ι → Config ω ε α σ
  | .own => S.ownStep c
  | .abandon =>
    match c.stage with
    | .running (.act op _) => if S.yields op then ⟨.cleaning .abandoned S.cleanup, c.state⟩ else c
    | _ => c
  | .other action => { c with state := S.act action c.state }

def reached (s : σ) (choices : List (Choice ι)) : Config ω ε α σ :=
  choices.foldl S.step ⟨.running S.program, s⟩

theorem reached_concat (s : σ) (choices : List (Choice ι)) (choice : Choice ι) :
    S.reached s (choices ++ [choice]) = S.step (S.reached s choices) choice := by
  simp [reached]

end System

/-- The operation that the program takes next, if it takes one, is `good`. -/
def Config.Next (good : {β : Type} → ω β → σ → Prop) (c : Config ω ε α σ) : Prop :=
  match c.stage with
  | .running (.act op _) => good op c.state
  | .cleaning _ (.act op _) => good op c.state
  | _ => True

theorem Config.Next.mono {good good' : {β : Type} → ω β → σ → Prop} {c : Config ω ε α σ} (h : c.Next good)
    (hgood : ∀ {β : Type} (op : ω β) s, good op s → good' op s) : c.Next good' := by
  obtain ⟨stage, s⟩ := c
  rcases stage with (_ | _ | _ | ⟨op, next⟩) | ⟨outcome, _ | _ | _ | ⟨op, next⟩⟩ | _
  all_goals first
    | exact True.intro
    | exact hgood op s h

/-- The step that is chosen is `good`, if it is the program's, and `fair`, if it is another's. -/
def Config.Meets (good : {β : Type} → ω β → σ → Prop) (fair : ι → σ → Prop) (c : Config ω ε α σ) :
    Choice ι → Prop
  | .own => c.Next good
  | .abandon => True
  | .other action => fair action c.state

section Runs
variable [Atomic ω σ] {S : System ω ε α σ ι} {s : σ} {choices : List (Choice ι)}
  {good : {β : Type} → ω β → σ → Prop} {fair : ι → σ → Prop}

/-- Every step of the run is `good` or `fair` where it is taken. -/
def System.Careful (S : System ω ε α σ ι) (s : σ) (good : {β : Type} → ω β → σ → Prop) (fair : ι → σ → Prop)
    (choices : List (Choice ι)) : Prop :=
  ∀ before choice after, choices = before ++ choice :: after → (S.reached s before).Meets good fair choice

/-- The same, step by step. -/
def System.CarefulFrom (S : System ω ε α σ ι) (good : {β : Type} → ω β → σ → Prop) (fair : ι → σ → Prop) :
    Config ω ε α σ → List (Choice ι) → Prop
  | _, [] => True
  | c, choice :: rest => c.Meets good fair choice ∧ S.CarefulFrom good fair (S.step c choice) rest

theorem careful_of_carefulFrom (h : S.CarefulFrom good fair ⟨.running S.program, s⟩ choices) :
    S.Careful s good fair choices := by
  rintro before choice after rfl
  rw [System.reached]
  generalize (⟨.running S.program, s⟩ : Config ω ε α σ) = c at h ⊢
  induction before generalizing c with
  | nil => exact h.1
  | cons first before ih => exact ih _ h.2

section Decidable
variable [∀ {β : Type} (op : ω β) s, Decidable (good op s)] [∀ action s, Decidable (fair action s)]

instance (c : Config ω ε α σ) : Decidable (c.Next good) :=
  match c with
  | ⟨.running (.act op _), s⟩ => inferInstanceAs (Decidable (good op s))
  | ⟨.cleaning _ (.act op _), s⟩ => inferInstanceAs (Decidable (good op s))
  | ⟨.running (.done _), _⟩ | ⟨.running (.fail _), _⟩ | ⟨.running .outOfFuel, _⟩ => .isTrue True.intro
  | ⟨.cleaning _ (.done _), _⟩ | ⟨.cleaning _ .outOfFuel, _⟩ | ⟨.over _, _⟩ => .isTrue True.intro

instance (c : Config ω ε α σ) (choice : Choice ι) : Decidable (c.Meets good fair choice) :=
  match choice with
  | .own => inferInstanceAs (Decidable (c.Next good))
  | .abandon => .isTrue True.intro
  | .other action => inferInstanceAs (Decidable (fair action c.state))

instance decidableCarefulFrom (c : Config ω ε α σ) (choices : List (Choice ι)) :
    Decidable (S.CarefulFrom good fair c choices) :=
  match choices with
  | [] => .isTrue True.intro
  | choice :: rest =>
    have := decidableCarefulFrom (S.step c choice) rest
    inferInstanceAs (Decidable (_ ∧ _))

end Decidable

theorem careful_of_forall (hgood : ∀ {β : Type} (op : ω β) s, good op s) (hfair : ∀ action s, fair action s) :
    S.Careful s good fair choices := by
  intro before choice after _
  cases choice with
  | own =>
    show Config.Next _ _
    obtain ⟨stage, t⟩ := S.reached s before
    rcases stage with (_ | _ | _ | ⟨op, next⟩) | ⟨outcome, _ | _ | _ | ⟨op, next⟩⟩ | _
    all_goals first
      | exact True.intro
      | exact hgood op t
  | abandon => exact True.intro
  | other action => exact hfair action _

variable {good' : {β : Type} → ω β → σ → Prop} {fair' : ι → σ → Prop}

omit [Atomic ω σ] in
theorem Config.Meets.mono {c : Config ω ε α σ}
    {choice : Choice ι} (h : c.Meets good fair choice) (hgood : ∀ {β : Type} (op : ω β) s, good op s → good' op s)
    (hfair : ∀ action s, fair action s → fair' action s) : c.Meets good' fair' choice := by
  cases choice with
  | own => exact Config.Next.mono h hgood
  | abandon => exact True.intro
  | other action => exact hfair action _ h

theorem System.Careful.mono
    (h : S.Careful s good fair choices) (hgood : ∀ {β : Type} (op : ω β) s, good op s → good' op s)
    (hfair : ∀ action s, fair action s → fair' action s) : S.Careful s good' fair' choices :=
  fun before choice after heq => (h before choice after heq).mono hgood hfair

theorem System.Careful.and
    (h : S.Careful s good fair choices) (h' : S.Careful s good' fair' choices) :
    S.Careful s (fun op s => good op s ∧ good' op s) (fun action s => fair action s ∧ fair' action s) choices := by
  intro before choice after heq
  have hmeets := h before choice after heq
  have hmeets' := h' before choice after heq
  cases choice with
  | own =>
    change Config.Next _ _ at hmeets hmeets' ⊢
    revert hmeets hmeets'
    obtain ⟨stage, t⟩ := S.reached s before
    rcases stage with (_ | _ | _ | ⟨op, next⟩) | ⟨outcome, _ | _ | _ | ⟨op, next⟩⟩ | _
    all_goals intro hmeets hmeets'
    all_goals first
      | exact True.intro
      | exact ⟨hmeets, hmeets'⟩
  | abandon => exact True.intro
  | other action => exact ⟨hmeets, hmeets'⟩

variable {I : σ → Prop}

theorem careful_states (h : ∀ before after, choices = before ++ after → I (S.reached s before).state) :
    S.Careful s (fun op s => I s ∧ I (Atomic.apply op s).2) (fun action s => I s ∧ I (S.act action s)) choices := by
  intro before choice after heq
  have hbefore := h before (choice :: after) heq
  have hafter := h (before ++ [choice]) after (by simp [heq])
  rw [S.reached_concat] at hafter
  cases choice with
  | own =>
    change Config.Next _ _
    revert hbefore hafter
    obtain ⟨stage, t⟩ := S.reached s before
    rcases stage with (_ | _ | _ | ⟨op, next⟩) | ⟨outcome, _ | _ | _ | ⟨op, next⟩⟩ | _
    all_goals intro hbefore hafter
    all_goals first
      | exact True.intro
      | exact ⟨hbefore, hafter⟩
  | abandon => exact True.intro
  | other action => exact ⟨hbefore, hafter⟩

theorem careful_concat {choice : Choice ι} (h : S.Careful s good fair (choices ++ [choice])) :
    S.Careful s good fair choices ∧ (S.reached s choices).Meets good fair choice := by
  constructor
  · intro before choice' after heq
    exact h before choice' (after ++ [choice]) (by simp [heq])
  · exact h choices choice [] rfl

theorem careful_of_append {before after : List (Choice ι)} (h : S.Careful s good fair (before ++ after)) :
    S.Careful s good fair before := by
  intro first choice rest heq
  exact h first choice (rest ++ after) (by simp [heq])

theorem config_invariant {I : Config ω ε α σ → Prop} (hinit : I ⟨.running S.program, s⟩)
    (hstep : ∀ c choice, I c → c.Meets good fair choice → I (S.step c choice))
    (h : S.Careful s good fair choices) : I (S.reached s choices) := by
  induction choices using List.reverseRecOn with
  | nil => exact hinit
  | append_singleton choices choice ih =>
    obtain ⟨hbefore, hlast⟩ := careful_concat h
    rw [S.reached_concat]
    exact hstep _ _ (ih hbefore) hlast

/-- What every careful operation and every careful action preserves holds in every state of a careful
run, whatever the program. -/
theorem state_invariant (hinit : I s)
    (hown : ∀ {β : Type} (op : ω β) s, I s → good op s → I (Atomic.apply op s).2)
    (hother : ∀ action s, I s → fair action s → I (S.act action s))
    (h : S.Careful s good fair choices) : I (S.reached s choices).state := by
  refine config_invariant (I := fun c => I c.state) hinit ?_ h
  intro c choice hI hmeets
  obtain ⟨stage, t⟩ := c
  cases choice with
  | own =>
    rcases stage with (_ | _ | _ | ⟨op, next⟩) | ⟨outcome, _ | ⟨⟨⟩⟩ | _ | ⟨op, next⟩⟩ | _
    all_goals first
      | exact hI
      | exact hown op t hI hmeets
  | abandon =>
    rcases stage with (_ | _ | _ | ⟨op, next⟩) | _ | _
    all_goals try exact hI
    rw [System.step]
    dsimp only
    split
    · exact hI
    · exact hI
  | other action => exact hother action t hI hmeets

theorem history_invariant {I : List (Choice ι) → Prop} (hinit : I [])
    (hown : ∀ {β : Type} choices (op : ω β), I choices → good op (S.reached s choices).state →
      (S.reached s (choices ++ [.own])).state = (Atomic.apply op (S.reached s choices).state).2 → I (choices ++ [.own]))
    (hother : ∀ choices action, I choices → fair action (S.reached s choices).state →
      (S.reached s (choices ++ [.other action])).state = S.act action (S.reached s choices).state →
      I (choices ++ [.other action]))
    (hidle : ∀ choices choice, I choices → (S.reached s (choices ++ [choice])).state = (S.reached s choices).state →
      I (choices ++ [choice]))
    (h : S.Careful s good fair choices) : I choices := by
  induction choices using List.reverseRecOn with
  | nil => exact hinit
  | append_singleton choices choice ih =>
    obtain ⟨hbefore, hlast⟩ := careful_concat h
    have hI := ih hbefore
    have hnext := S.reached_concat s choices choice
    cases choice with
    | own =>
      have hact := fun {β : Type} (op : ω β) => hown choices op hI
      have hstay := hidle choices .own hI
      rw [hnext] at hstay
      simp only [hnext] at hact
      generalize S.reached s choices = c at hact hstay hlast
      obtain ⟨stage, t⟩ := c
      rcases stage with (_ | _ | _ | ⟨op, next⟩) | ⟨outcome, _ | ⟨⟨⟩⟩ | _ | ⟨op, next⟩⟩ | _
      all_goals first
        | exact hstay rfl
        | exact hact op hlast rfl
    | abandon =>
      refine hidle choices .abandon hI ?_
      rw [hnext]
      generalize S.reached s choices = c
      obtain ⟨stage, t⟩ := c
      rcases stage with (_ | _ | _ | ⟨op, next⟩) | _ | _
      all_goals try rfl
      rw [System.step]
      dsimp only
      split
      · rfl
      · rfl
    | other action => exact hother choices action hI hlast (congrArg Config.state hnext)

/-- What relates the state before every careful step to the one behind it relates an earlier state of a careful
run to a later one. -/
theorem related_reached {r : σ → σ → Prop} (hrefl : ∀ s, r s s) (htrans : ∀ s t u, r s t → r t u → r s u)
    (hown : ∀ {β : Type} (op : ω β) s, good op s → r s (Atomic.apply op s).2)
    (hother : ∀ action s, fair action s → r s (S.act action s)) (before after : List (Choice ι))
    (h : S.Careful s good fair (before ++ after)) : r (S.reached s before).state (S.reached s (before ++ after)).state := by
  induction after using List.reverseRecOn with
  | nil =>
    rw [List.append_nil]
    exact hrefl _
  | append_singleton after choice ih =>
    rw [← List.append_assoc] at h ⊢
    obtain ⟨hbefore, hlast⟩ := careful_concat h
    refine htrans _ _ _ (ih hbefore) ?_
    rw [S.reached_concat]
    revert hlast
    obtain ⟨stage, t⟩ := S.reached s (before ++ after)
    intro hlast
    cases choice with
    | own =>
      rcases stage with (_ | _ | _ | ⟨op, next⟩) | ⟨outcome, _ | ⟨⟨⟩⟩ | _ | ⟨op, next⟩⟩ | _
      all_goals first
        | exact hrefl t
        | exact hown op t hlast
    | abandon =>
      rcases stage with (_ | _ | _ | ⟨op, next⟩) | _ | _
      all_goals try exact hrefl t
      rw [System.step]
      dsimp only
      split
      · exact hrefl t
      · exact hrefl t
    | other action => exact hother action t hlast

theorem careful_invariant (hinit : I s)
    (hown : ∀ {β : Type} (op : ω β) s, I s → good op s → I (Atomic.apply op s).2)
    (hother : ∀ action s, I s → fair action s → I (S.act action s))
    (h : S.Careful s good fair choices) :
    S.Careful s (fun op s => good op s ∧ I s) (fun action s => fair action s ∧ I s) choices := by
  intro before choice after heq
  have hmeets := h before choice after heq
  rw [heq] at h
  have hstate := state_invariant hinit hown hother (careful_of_append h)
  cases choice with
  | own =>
    change Config.Next _ _ at hmeets ⊢
    revert hmeets hstate
    obtain ⟨stage, t⟩ := S.reached s before
    rcases stage with (_ | _ | _ | ⟨op, next⟩) | ⟨outcome, _ | _ | _ | ⟨op, next⟩⟩ | _
    all_goals intro hstate hmeets
    all_goals first
      | exact True.intro
      | exact ⟨hmeets, hstate⟩
  | abandon => exact True.intro
  | other action => exact ⟨hmeets, hstate⟩

/-! ## Runs of a program that follows a protocol -/

/-- A program that follows `P` yields where `Clean` holds, and the cleanup behind it ends in `Done`. -/
structure Conduct (S : System ω ε α σ ι) (P : Protocol ω κ) (Clean Done : κ → Prop) : Prop where
  cleanup : ∀ k, Clean k → Follows P (fun _ k => Done k) (fun error _ => nomatch error) S.cleanup k
  yields : ∀ {β : Type} (op : ω β) k, S.yields op = true → P.allows k op → Clean k

/-- Where a program that follows `P` stands, `track` tying its progress to the state. It yields and
stops where `Clean` holds, having failed only with `E`; the cleanup ends in `Done`. -/
structure Discipline (S : System ω ε α σ ι) (P : Protocol ω κ) (Clean Done : κ → Prop) (E : ε → κ → Prop) : Prop
    extends Conduct S P Clean Done where
  program : ∀ k, Clean k → Follows P (fun _ k => Clean k) (fun error k => E error k ∧ Clean k) S.program k

def Adheres (P : Protocol ω κ) (track : σ → κ → Prop) (Clean Done : κ → Prop) (E : ε → κ → Prop)
    (c : Config ω ε α σ) : Prop :=
  ∃ k, track c.state k ∧ match c.stage with
    | .running p => Follows P (fun _ k => Clean k) (fun error k => E error k ∧ Clean k) p k
    | .cleaning _ p => Follows P (fun _ k => Done k) (fun error _ => nomatch error) p k
    | .over _ => Done k

section Adheres
variable {P : Protocol ω κ} {track : σ → κ → Prop} {Clean Done : κ → Prop} {E : ε → κ → Prop}

section Step
variable (D : Conduct S P Clean Done)
  (hown : ∀ {β : Type} (op : ω β) s k, track s k → good op s → P.allows k op →
    P.expects op (Atomic.apply op s).1 ∧ track (Atomic.apply op s).2 (P.next k op (Atomic.apply op s).1))
  (hother : ∀ action s k, track s k → fair action s → track (S.act action s) k)
include D hown hother

theorem adheres_step {c : Config ω ε α σ} {choice : Choice ι} (hc : Adheres P track Clean Done E c)
    (hmeets : c.Meets good fair choice) : Adheres P track Clean Done E (S.step c choice) := by
  obtain ⟨stage, t⟩ := c
  obtain ⟨k, htrack, hk⟩ := hc
  cases choice with
  | own =>
    rcases stage with (_ | error | _ | ⟨op, next⟩) | ⟨outcome, _ | ⟨⟨⟩⟩ | _ | ⟨op, next⟩⟩ | _
    · exact ⟨k, htrack, D.cleanup k hk⟩
    · exact ⟨k, htrack, D.cleanup k hk.2⟩
    · exact ⟨k, htrack, hk⟩
    · obtain ⟨hexpected, htrack'⟩ := hown op t k htrack hmeets hk.1
      exact ⟨_, htrack', hk.2 _ hexpected⟩
    · exact ⟨k, htrack, hk⟩
    · exact ⟨k, htrack, hk⟩
    · obtain ⟨hexpected, htrack'⟩ := hown op t k htrack hmeets hk.1
      exact ⟨_, htrack', hk.2 _ hexpected⟩
    · exact ⟨k, htrack, hk⟩
  | abandon =>
    rcases stage with (_ | _ | _ | ⟨op, next⟩) | _ | _
    all_goals try exact ⟨k, htrack, hk⟩
    rw [System.step]
    dsimp only
    split
    · rename_i hyield
      exact ⟨k, htrack, D.cleanup k (D.yields op k hyield hk.1)⟩
    · exact ⟨k, htrack, hk⟩
  | other action => exact ⟨k, hother action t k htrack hmeets, hk⟩

theorem adheres_of_follows {k : κ} (hinit : track s k)
    (hprogram : Follows P (fun _ k => Clean k) (fun error k => E error k ∧ Clean k) S.program k)
    (h : S.Careful s good fair choices) : Adheres P track Clean Done E (S.reached s choices) :=
  config_invariant ⟨k, hinit, hprogram⟩ (fun _ _ hc => adheres_step D hown hother hc) h

end Step

section Run
variable (D : Discipline S P Clean Done E)
  (hown : ∀ {β : Type} (op : ω β) s k, track s k → good op s → P.allows k op →
    P.expects op (Atomic.apply op s).1 ∧ track (Atomic.apply op s).2 (P.next k op (Atomic.apply op s).1))
  (hother : ∀ action s k, track s k → fair action s → track (S.act action s) k)
include D hown hother

theorem adheres_reached {k : κ} (hinit : track s k) (hclean : Clean k) (h : S.Careful s good fair choices) :
    Adheres P track Clean Done E (S.reached s choices) :=
  adheres_of_follows D.toConduct hown hother hinit (D.program k hclean) h

theorem hasFailed_reached {k : κ} (hE : ∀ error k, ¬E error k) (hinit : track s k) (hclean : Clean k)
    (h : S.Careful s good fair choices) : (S.reached s choices).stage.hasFailed = false := by
  have hrunning : ∀ {p : Prog ω ε α} {t : σ}, Adheres P track Clean Done E ⟨.running p, t⟩ →
      (Stage.running p).hasFailed = false := by
    intro p t ⟨k, _, hp⟩
    cases p with
    | fail error => exact (hE error k hp.1).elim
    | _ => rfl
  refine (config_invariant (I := fun c => Adheres P track Clean Done E c ∧ c.stage.hasFailed = false)
    ⟨⟨k, hinit, D.program k hclean⟩, hrunning ⟨k, hinit, D.program k hclean⟩⟩ ?_ h).2
  intro c choice ⟨hc, hfailed⟩ hmeets
  have hnext := adheres_step D.toConduct hown hother hc hmeets
  refine ⟨hnext, ?_⟩
  obtain ⟨stage, t⟩ := c
  cases choice with
  | own =>
    rcases stage with (_ | error | _ | ⟨op, next⟩) | ⟨_ | _ | _, _ | ⟨⟨⟩⟩ | _ | ⟨op, next⟩⟩ | _
    all_goals first
      | exact hrunning hnext
      | exact hfailed
  | abandon =>
    rcases stage with (_ | _ | _ | ⟨op, next⟩) | _ | _
    all_goals try exact hfailed
    rw [System.step]
    dsimp only
    split
    · rfl
    · exact hfailed
  | other action => exact hfailed

end Run

omit [Atomic ω σ] in
theorem Adheres.next {c : Config ω ε α σ} (h : Adheres P track Clean Done E c) :
    c.Next fun op s => ∃ k, track s k ∧ P.allows k op := by
  obtain ⟨stage, s⟩ := c
  obtain ⟨k, htrack, hk⟩ := h
  rcases stage with (_ | _ | _ | ⟨op, next⟩) | ⟨outcome, _ | _ | _ | ⟨op, next⟩⟩ | _
  all_goals first
    | exact True.intro
    | exact ⟨k, htrack, hk.1⟩

variable (track) in
theorem careful_follows {k : κ} (D : Conduct S P Clean Done) (hinit : track s k)
    (hprogram : Follows P (fun _ k => Clean k) (fun error k => E error k ∧ Clean k) S.program k)
    (hown : ∀ {β : Type} (op : ω β) s k, track s k → good op s → P.allows k op →
      P.expects op (Atomic.apply op s).1 ∧ track (Atomic.apply op s).2 (P.next k op (Atomic.apply op s).1))
    (hother : ∀ action s k, track s k → fair action s → track (S.act action s) k)
    (h : S.Careful s good fair choices) :
    S.Careful s (fun op s => good op s ∧ ∃ k, track s k ∧ P.allows k op) fair choices := by
  intro before choice after heq
  have hmeets := h before choice after heq
  rw [heq] at h
  have hnext := (adheres_of_follows D hown hother hinit hprogram (careful_of_append h)).next
  cases choice with
  | own =>
    change Config.Next _ _ at hmeets ⊢
    revert hmeets hnext
    obtain ⟨stage, t⟩ := S.reached s before
    rcases stage with (_ | _ | _ | ⟨op, next⟩) | ⟨outcome, _ | _ | _ | ⟨op, next⟩⟩ | _
    all_goals intro hnext hmeets
    all_goals first
      | exact True.intro
      | exact ⟨hmeets, hnext⟩
  | abandon => exact True.intro
  | other action => exact hmeets

theorem careful_allowed {k : κ} (D : Discipline S P Clean Done E) (hinit : track s k) (hclean : Clean k)
    (hown : ∀ {β : Type} (op : ω β) s k, track s k → good op s → P.allows k op →
      P.expects op (Atomic.apply op s).1 ∧ track (Atomic.apply op s).2 (P.next k op (Atomic.apply op s).1))
    (hother : ∀ action s k, track s k → fair action s → track (S.act action s) k)
    (h : S.Careful s good fair choices) :
    S.Careful s (fun op s => good op s ∧ ∃ k, track s k ∧ P.allows k op) fair choices :=
  careful_follows track D.toConduct hinit (D.program k hclean) hown hother h

end Adheres

end Runs

/-! ## Without others -/

section Outright
variable [Atomic ω σ]

/-- What a program answers, if it returns, and what it leaves when nobody acts in between. -/
def Prog.outright : Prog ω ε α → σ → Option α × σ
  | .done a, s => (some a, s)
  | .fail _, s | .outOfFuel, s => (none, s)
  | .act op next, s => (next (Atomic.apply op s).1).outright (Atomic.apply op s).2

theorem outright_pure (a : α) (s : σ) : (pure a : Prog ω ε α).outright s = (some a, s) := rfl

theorem outright_perform (op : ω α) (s : σ) :
    (perform op : Prog ω ε α).outright s = (some (Atomic.apply op s).1, (Atomic.apply op s).2) := rfl

theorem outright_bind (p : Prog ω ε α) (f : α → Prog ω ε β) (s : σ) :
    (p >>= f).outright s =
      match p.outright s with
      | (some a, s) => (f a).outright s
      | (none, s) => (none, s) := by
  show (p.bind f).outright s = _
  induction p generalizing s with
  | done a => rfl
  | fail error => rfl
  | outOfFuel => rfl
  | act op next ih => exact ih _ _

theorem of_outright_bind {p : Prog ω ε α} {f : α → Prog ω ε β} {s s' : σ} {b : β}
    (h : (p >>= f).outright s = (some b, s')) :
    ∃ a between, p.outright s = (some a, between) ∧ (f a).outright between = (some b, s') := by
  rw [outright_bind] at h
  split at h
  · rename_i a between hp
    exact ⟨a, between, hp, h⟩
  · cases h

end Outright

end Ngnet.InterleavedPrograms
