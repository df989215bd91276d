import Ngnet.InterleavedPrograms

/-!
# What programs perform

The operations that a program may perform at all, the paths that its answers lead along, and the trace
of a run: what its program has performed, each operation with its answer. A run follows a path of its
program, and a path through `p >>= f` is one through `p`, with one through `f` behind it if it gets
that far.
-/

namespace Ngnet.OperationTraces
open InterleavedPrograms

universe u

variable {ω : Type → Type u} {ε α β κ σ ι : Type}

/-- An operation and its answer. -/
structure Performed (ω : Type → Type u) : Type (max 1 u) where
  {answers : Type}
  op : ω answers
  answer : answers

/-! ## Sequences of programs -/

theorem bind_done (p : Prog ω ε α) : p.bind .done = p := by
  induction p with
  | done a => rfl
  | fail error => rfl
  | outOfFuel => rfl
  | act op next ih => simp [Prog.bind, ih]

theorem bind_bind (p : Prog ω ε α) (f : α → Prog ω ε β) {γ : Type} (g : β → Prog ω ε γ) :
    (p.bind f).bind g = p.bind fun a => (f a).bind g := by
  induction p with
  | done a => rfl
  | fail error => rfl
  | outOfFuel => rfl
  | act op next ih => simp [Prog.bind, ih]

instance : LawfulMonad (Prog ω ε) := LawfulMonad.mk' (Prog ω ε) bind_done (fun _ _ => rfl) fun p f g => bind_bind p f g

/-! ## What a program is composed of -/

/-- A program composed of `good` operations and of the programs that it `calls`. -/
inductive Composed (calls : ⦃γ : Type⦄ → Prog ω ε γ → Prop) (good : ⦃β : Type⦄ → ω β → Prop) :
    {α : Type} → Prog ω ε α → Prop
  | done {α : Type} {a : α} : Composed calls good (.done a)
  | fail {α : Type} {error : ε} : Composed calls good (.fail error : Prog ω ε α)
  | outOfFuel {α : Type} : Composed calls good (.outOfFuel : Prog ω ε α)
  | act {α β : Type} {op : ω β} {next : β → Prog ω ε α} (hop : good op) (hnext : ∀ b, Composed calls good (next b)) :
    Composed calls good (.act op next)
  | call {α γ : Type} {p : Prog ω ε γ} {f : γ → Prog ω ε α} (hp : calls p) (hf : ∀ a, Composed calls good (f a)) :
    Composed calls good (p.bind f)

section Composed
variable {calls : ⦃γ : Type⦄ → Prog ω ε γ → Prop} {good : ⦃β : Type⦄ → ω β → Prop}

theorem composed_pure {a : α} : Composed calls good (pure a : Prog ω ε α) := .done

theorem composed_perform {op : ω α} (h : good op) : Composed calls good (perform op : Prog ω ε α) :=
  .act h fun _ => .done

theorem composed_ofExcept {result : Except ε α} : Composed calls good (ofExcept result : Prog ω ε α) := by
  cases result with
  | ok a => exact .done
  | error error => exact .fail

theorem composed_call {p : Prog ω ε α} (h : calls p) : Composed calls good p :=
  bind_done p ▸ .call h fun _ => .done

theorem composed_bind {p : Prog ω ε α} {f : α → Prog ω ε β} (hp : Composed calls good p)
    (hf : ∀ a, Composed calls good (f a)) : Composed calls good (p >>= f) := by
  show Composed calls good (p.bind f)
  induction hp with
  | done => exact hf _
  | fail => exact .fail
  | outOfFuel => exact .outOfFuel
  | act hop _ ih => exact .act hop fun b => ih b
  | call hp _ ih =>
    rw [bind_bind]
    exact .call hp fun a => ih a

end Composed

/-! ## Paths -/

/-- What is left of a program once it has performed these operations. -/
inductive Leads : Prog ω ε α → List (Performed ω) → Prog ω ε α → Prop
  | nil {p : Prog ω ε α} : Leads p [] p
  | cons {β : Type} {op : ω β} {b : β} {next : β → Prog ω ε α} {t : List (Performed ω)} {q : Prog ω ε α}
      (h : Leads (next b) t q) : Leads (.act op next) (⟨op, b⟩ :: t) q

variable {p q : Prog ω ε α} {t : List (Performed ω)}

theorem Leads.append {r : Prog ω ε α} {t' : List (Performed ω)} (h : Leads p t q) (h' : Leads q t' r) :
    Leads p (t ++ t') r := by
  induction h with
  | nil => exact h'
  | cons _ ih => exact .cons (ih h')

theorem Leads.concat {op : ω β} {next : β → Prog ω ε α}
    (h : Leads p t (.act op next)) (b : β) : Leads p (t ++ [⟨op, b⟩]) (next b) :=
  h.append (.cons .nil)

theorem leads_bind {f : α → Prog ω ε β} {q : Prog ω ε β}
    (h : Leads (p >>= f) t q) :
    (∃ p', Leads p t p' ∧ (∀ a, p' ≠ .done a) ∧ q = p' >>= f) ∨
      ∃ first a second, t = first ++ second ∧ Leads p first (.done a) ∧ Leads (f a) second q := by
  change Leads (p.bind f) t q at h
  induction p generalizing t with
  | done a => exact .inr ⟨[], a, t, rfl, .nil, h⟩
  | fail error =>
    cases h
    exact .inl ⟨.fail error, .nil, nofun, rfl⟩
  | outOfFuel =>
    cases h
    exact .inl ⟨.outOfFuel, .nil, nofun, rfl⟩
  | act op next ih =>
    cases h with
    | nil => exact .inl ⟨.act op next, .nil, nofun, rfl⟩
    | cons h =>
      obtain ⟨p', hp', hunfinished, rfl⟩ | ⟨first, a, second, rfl, hfirst, hsecond⟩ := ih _ h
      · exact .inl ⟨p', .cons hp', hunfinished, rfl⟩
      · exact .inr ⟨_ :: first, a, second, rfl, .cons hfirst, hsecond⟩

theorem leads_bind_done {f : α → Prog ω ε β} {b : β}
    (h : Leads (p >>= f) t (.done b)) :
    ∃ first a second, t = first ++ second ∧ Leads p first (.done a) ∧ Leads (f a) second (.done b) := by
  obtain ⟨p', -, hunfinished, heq⟩ | hboth := leads_bind h
  · cases p' with
    | done a => exact (hunfinished a rfl).elim
    | fail error => cases heq
    | outOfFuel => cases heq
    | act op next => cases heq
  · exact hboth

theorem leads_of_append {t' : List (Performed ω)} (h : Leads p (t ++ t') q) :
    ∃ r, Leads p t r ∧ Leads r t' q := by
  induction t generalizing p with
  | nil => exact ⟨p, .nil, h⟩
  | cons x t ih =>
    cases h with
    | cons h =>
      obtain ⟨r, hr, hq⟩ := ih h
      exact ⟨r, .cons hr, hq⟩

/-- How a path goes through a program that is composed of operations and calls: it performs operations,
goes through calls, and may end inside one. -/
inductive Passage (calls : ⦃γ : Type⦄ → Prog ω ε γ → Prop) (good : ⦃β : Type⦄ → ω β → Prop) {α : Type} :
    Prog ω ε α → List (Performed ω) → Prog ω ε α → Prop
  | here {p : Prog ω ε α} : Passage calls good p [] p
  | act {β : Type} {op : ω β} {b : β} {next : β → Prog ω ε α} {t : List (Performed ω)} {q : Prog ω ε α} (hop : good op)
      (h : Passage calls good (next b) t q) : Passage calls good (.act op next) (⟨op, b⟩ :: t) q
  | through {γ : Type} {p : Prog ω ε γ} {f : γ → Prog ω ε α} {a : γ} {t t' : List (Performed ω)} {q : Prog ω ε α}
      (hp : calls p) (hpath : Leads p t (.done a)) (h : Passage calls good (f a) t' q) :
      Passage calls good (p.bind f) (t ++ t') q
  | inside {γ : Type} {p p' : Prog ω ε γ} {f : γ → Prog ω ε α} {t : List (Performed ω)} (hp : calls p)
      (hpath : Leads p t p') (hunfinished : ∀ a, p' ≠ .done a) : Passage calls good (p.bind f) t (p'.bind f)

variable {good : ⦃β : Type⦄ → ω β → Prop}

theorem Composed.passage {calls : ⦃γ : Type⦄ → Prog ω ε γ → Prop}
    (hp : Composed calls good p) (h : Leads p t q) : Passage calls good p t q := by
  induction hp generalizing t with
  | done =>
    cases h
    exact .here
  | fail =>
    cases h
    exact .here
  | outOfFuel =>
    cases h
    exact .here
  | act hop _ ih =>
    cases h with
    | nil => exact .here
    | cons h => exact .act hop (ih _ h)
  | call hp _ ih =>
    obtain ⟨p', hp', hunfinished, rfl⟩ | ⟨first, a, second, rfl, hfirst, hsecond⟩ := leads_bind h
    · exact .inside hp hp' hunfinished
    · exact .through hp hfirst (ih a hsecond)

theorem Composed.leads {calls : ⦃γ : Type⦄ → Prog ω ε γ → Prop}
    (hp : Composed calls good p) (h : Leads p t q) : Composed calls good q ∨
      ∃ (γ : Type) (p₁ p' : Prog ω ε γ) (f : γ → Prog ω ε α) (before within : List (Performed ω)),
        calls p₁ ∧ Leads p₁ within p' ∧ (∀ a, p' ≠ .done a) ∧ q = p'.bind f ∧ t = before ++ within ∧ within ≠ [] := by
  induction hp generalizing t with
  | done =>
    cases h
    exact .inl .done
  | fail =>
    cases h
    exact .inl .fail
  | outOfFuel =>
    cases h
    exact .inl .outOfFuel
  | act hop hnext ih =>
    cases h with
    | nil => exact .inl (.act hop hnext)
    | cons h =>
      obtain hleft | ⟨γ, p₁, p', f, before, within, hcall, hpath, hunfinished, rfl, rfl, hwithin⟩ := ih _ h
      · exact .inl hleft
      · exact .inr ⟨γ, p₁, p', f, _ :: before, within, hcall, hpath, hunfinished, rfl, rfl, hwithin⟩
  | call hp hf ih =>
    obtain ⟨p', hp', hunfinished, rfl⟩ | ⟨first, a, second, rfl, _, hsecond⟩ := leads_bind h
    · cases hp' with
      | nil => exact .inl (.call hp hf)
      | cons hp' => exact .inr ⟨_, _, p', _, [], _, hp, .cons hp', hunfinished, rfl, rfl, nofun⟩
    · obtain hleft | ⟨γ, p₁, p', f, before, within, hcall, hpath, hunfinished, rfl, rfl, hwithin⟩ := ih a hsecond
      · exact .inl hleft
      · refine .inr ⟨γ, p₁, p', f, first ++ before, within, hcall, hpath, hunfinished, rfl, ?_, hwithin⟩
        rw [List.append_assoc]

theorem Composed.only
    (hp : Composed (fun _ _ => False) good p) (h : Leads p t q) : ∀ x ∈ t, good x.op := by
  induction hp generalizing t with
  | call hcall _ _ => exact hcall.elim
  | act hop _ ih =>
    cases h with
    | nil => exact nofun
    | cons h => exact List.forall_mem_cons.mpr ⟨hop, ih _ h⟩
  | _ =>
    cases h
    exact nofun

theorem Composed.next {op : ω β} {next : β → Prog ω ε α} (b : β)
    (hp : Composed (fun _ _ => False) good p) (h : Leads p t (.act op next)) : good op :=
  hp.only (h.concat b) ⟨op, b⟩ (List.mem_append_right _ (List.mem_singleton_self _))

/-! ## Protocols along paths -/

section Protocols
variable {P : Protocol ω κ} {Q : α → κ → Prop} {E : ε → κ → Prop}

/-- Where a protocol stands behind these operations. -/
def after (P : Protocol ω κ) (k : κ) (t : List (Performed ω)) : κ := t.foldl (fun k x => P.next k x.op x.answer) k

variable {p : Prog ω ε α} {k : κ}

theorem follows_leads {q : Prog ω ε α} {t : List (Performed ω)} (h : Follows P Q E p k)
    (hexpects : ∀ {β : Type} (op : ω β) b, P.expects op b) (hpath : Leads p t q) : Follows P Q E q (after P k t) := by
  induction hpath generalizing k with
  | nil => exact h
  | cons _ ih => exact ih (h.2 _ (hexpects _ _))

theorem allows_of_leads {q : Prog ω ε α} {t t' : List (Performed ω)} {x : Performed ω}
    (h : Follows P Q E p k) (hexpects : ∀ {β : Type} (op : ω β) b, P.expects op b)
    (hpath : Leads p (t ++ x :: t') q) : P.allows (after P k t) x.op := by
  obtain ⟨r, hr, hrest⟩ := leads_of_append hpath
  have hfollows := follows_leads h hexpects hr
  cases hrest with
  | cons _ => exact hfollows.1

theorem follows_of_composed {calls : ⦃γ : Type⦄ → Prog ω ε γ → Prop} {good : ⦃β : Type⦄ → ω β → Prop} {K : κ → Prop}
    (hop : ∀ {β : Type} (op : ω β) k, good op → K k → P.allows k op ∧ ∀ b, K (P.next k op b))
    (hcall : ∀ {γ : Type} (p : Prog ω ε γ) k, calls p → K k → Follows P (fun _ k => K k) (fun _ k => K k) p k)
    (hp : Composed calls good p) (hk : K k) :
    Follows P (fun _ k => K k) (fun _ k => K k) p k := by
  induction hp generalizing k with
  | done => exact hk
  | fail => exact hk
  | outOfFuel => exact True.intro
  | act hgood _ ih =>
    obtain ⟨hallows, hnext⟩ := hop _ k hgood hk
    exact ⟨hallows, fun b _ => ih b (hnext b)⟩
  | call hp _ ih =>
    refine follows_bind.mpr ?_
    exact (hcall _ k hp hk).mono (fun a k' hk' => ih a hk') fun _ _ h => h

end Protocols

/-! ## Traces -/

section Traces
variable [Atomic ω σ] (S : System ω ε α σ ι)

/-- What the program performs in one step. -/
def performed (c : Config ω ε α σ) : Choice ι → List (Performed ω)
  | .own =>
    match c.stage with
    | .running (.act op _) | .cleaning _ (.act op _) => [⟨op, (Atomic.apply op c.state).1⟩]
    | _ => []
  | _ => []

omit S in
@[simp] theorem performed_abandon (c : Config ω ε α σ) : performed c (.abandon : Choice ι) = [] := rfl

omit S in
@[simp] theorem performed_other (c : Config ω ε α σ) (action : ι) : performed c (.other action) = [] := rfl

def traceFrom : Config ω ε α σ → List (Choice ι) → List (Performed ω)
  | _, [] => []
  | c, choice :: rest => performed c choice ++ traceFrom (S.step c choice) rest

/-- What the program has performed in a run. -/
def trace (s : σ) (choices : List (Choice ι)) : List (Performed ω) := traceFrom S ⟨.running S.program, s⟩ choices

variable {S} {s : σ} {choices : List (Choice ι)}

theorem traceFrom_append (c : Config ω ε α σ) (choices choices' : List (Choice ι)) :
    traceFrom S c (choices ++ choices') = traceFrom S c choices ++ traceFrom S (choices.foldl S.step c) choices' := by
  induction choices generalizing c with
  | nil => rfl
  | cons first rest ih => simp [traceFrom, ih]

theorem trace_append (choices' : List (Choice ι)) :
    trace S s (choices ++ choices') = trace S s choices ++ traceFrom S (S.reached s choices) choices' :=
  traceFrom_append ..

theorem trace_concat (choice : Choice ι) :
    trace S s (choices ++ [choice]) = trace S s choices ++ performed (S.reached s choices) choice := by
  rw [trace_append]
  simp [traceFrom]

theorem step_cases (c : Config ω ε α σ) (choice : Choice ι) :
    (∃ (β : Type) (op : ω β), choice = .own ∧ performed c choice = [⟨op, (Atomic.apply op c.state).1⟩] ∧
      (S.step c choice).state = (Atomic.apply op c.state).2) ∨
    (∃ action, choice = .other action ∧ performed c choice = [] ∧ (S.step c choice).state = S.act action c.state) ∨
    (performed c choice = [] ∧ (S.step c choice).state = c.state) := by
  obtain ⟨stage, t⟩ := c
  cases choice with
  | own =>
    rcases stage with (_ | _ | _ | ⟨op, next⟩) | ⟨outcome, _ | ⟨⟨⟩⟩ | _ | ⟨op, next⟩⟩ | _
    all_goals first
      | exact .inl ⟨_, op, rfl, rfl, rfl⟩
      | exact .inr (.inr ⟨rfl, rfl⟩)
  | abandon =>
    refine .inr (.inr ⟨rfl, ?_⟩)
    rcases stage with (_ | _ | _ | ⟨op, next⟩) | _ | _
    all_goals try rfl
    rw [System.step]
    dsimp only
    split
    · rfl
    · rfl
  | other action => exact .inr (.inl ⟨action, rfl, rfl, rfl⟩)

theorem trace_invariant {good : {β : Type} → ω β → σ → Prop} {fair : ι → σ → Prop}
    {I : List (Performed ω) → σ → Prop} (hinit : I [] s)
    (hown : ∀ {β : Type} (op : ω β) t s, I t s → good op s →
      I (t ++ [⟨op, (Atomic.apply op s).1⟩]) (Atomic.apply op s).2)
    (hother : ∀ action t s, I t s → fair action s → I t (S.act action s))
    (h : S.Careful s good fair choices) : I (trace S s choices) (S.reached s choices).state := by
  induction choices using List.reverseRecOn with
  | nil => exact hinit
  | append_singleton choices choice ih =>
    obtain ⟨hbefore, hlast⟩ := careful_concat h
    have hI := ih hbefore
    rw [trace_concat, S.reached_concat]
    generalize S.reached s choices = c at hI hlast ⊢
    obtain ⟨stage, t⟩ := c
    cases choice with
    | own =>
      rcases stage with (_ | _ | _ | ⟨op, next⟩) | ⟨outcome, _ | ⟨⟨⟩⟩ | _ | ⟨op, next⟩⟩ | _
      all_goals first
        | exact hown op _ t hI hlast
        | exact (List.append_nil (trace S s choices)).symm ▸ hI
    | abandon =>
      have hkept : (S.step ⟨stage, t⟩ .abandon).state = t := by
        rcases stage with (_ | _ | _ | ⟨op, next⟩) | _ | _
        all_goals try rfl
        rw [System.step]
        dsimp only
        split
        · rfl
        · rfl
      rw [hkept, performed_abandon, List.append_nil]
      exact hI
    | other action =>
      rw [performed_other, List.append_nil]
      exact hother action _ t hI hlast

theorem leads_trace {p : Prog ω ε α} (h : (S.reached s choices).stage = .running p) :
    Leads S.program (trace S s choices) p := by
  induction choices using List.reverseRecOn generalizing p with
  | nil =>
    cases h
    exact .nil
  | append_singleton choices choice ih =>
    rw [trace_concat]
    rw [S.reached_concat] at h
    generalize S.reached s choices = c at ih h ⊢
    obtain ⟨stage, t⟩ := c
    cases choice with
    | own =>
      rcases stage with (_ | _ | _ | ⟨op, next⟩) | ⟨outcome, _ | ⟨⟨⟩⟩ | _ | ⟨op, next⟩⟩ | _
      all_goals try (cases h; done)
      · cases h
        exact (List.append_nil (trace S s choices)).symm ▸ ih rfl
      · cases h
        exact (ih rfl).concat _
    | abandon =>
      rw [performed_abandon, List.append_nil]
      rcases stage with (_ | _ | _ | ⟨op, next⟩) | _ | _
      all_goals try exact ih h
      rw [System.step] at h
      dsimp only at h
      split at h
      · cases h
      · exact ih h
    | other action =>
      rw [performed_other, List.append_nil]
      exact ih h

end Traces

end Ngnet.OperationTraces
