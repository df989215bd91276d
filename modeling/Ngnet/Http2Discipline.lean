import Ngnet.Http2Operations

/-!
# What an HTTP/2 driver holds

Between the operations that touch shared state the driver holds things in its local variables: the commands it drained,
the one it is submitting, the entries it removed. The protocol `desk` follows its answers and says what it holds. A
driver that follows it awaits, fails and returns with nothing in its hands, and its guard empties the registry and
drains the queue.
-/

namespace Ngnet.Http2Discipline
open Http2Heads Http2Handles Http2Driver Http2Passes Http2Operations InterleavedPrograms OperationTraces
open Http3Heads (Http)

variable {α β δ τ η : Type}

/-- `hand` counts the commands that were drained and not looked at, `submitting` says that one of them is neither
refused nor registered, `assigned` is the stream that it was submitted on, `leaving` counts the removed entries, and `told` says that the slot of the first of them is
settled. -/
structure Desk where
  hand : ℕ := 0
  submitting : Bool := false
  assigned : Option ℕ := none
  leaving : ℕ := 0
  told : Bool := false
  gone : Bool := false
  cleared : Bool := false
  swept : Bool := false
  deriving DecidableEq, Repr

namespace Desk

/-- Nothing is held. -/
def Tidy (k : Desk) : Prop := k.hand = 0 ∧ k.submitting = false ∧ k.leaving = 0

/-- Nothing is held, and the guard has not begun. -/
def Working (k : Desk) : Prop := k.Tidy ∧ k.assigned = none ∧ k.gone = false ∧ k.cleared = false ∧ k.swept = false

def next {α : Type} (k : Desk) (op : Op α) (answer : α) : Desk :=
  match op, answer with
  | .drainQueue, n => { k with hand := n, swept := k.gone }
  | .nextCommand, request => { k with hand := k.hand - 1, submitting := request.isSome }
  | .refuse _, _ => { k with submitting := false }
  | .session (.submitRequest _ _), .ok stream => { k with assigned := some stream }
  | .enter _, _ => { k with submitting := false, assigned := none }
  | .failHand _, _ => { k with hand := k.hand - 1 }
  | .removeEntry _, removed => if removed then { k with leaving := 1, told := false } else k
  | .leavingUnsettled, unsettled => { k with told := !unsettled }
  | .failLeavingSlot _, _ => { k with told := true }
  | .forgetLeaving, _ => { k with leaving := k.leaving - 1, told := false }
  | .takeAll, n => { k with leaving := n, told := false, cleared := true }
  | .setGone, _ => { k with gone := true }
  | _, _ => k

def allows {α : Type} (k : Desk) : Op α → Prop
  | .await | .write | .commit => k.Working
  | .drainQueue => k.Tidy
  | .nextCommand => k.submitting = false
  | .enter stream => k.submitting = true ∧ k.assigned = some stream ∧ k.cleared = false
  | .enterIncoming _ => k.cleared = false
  | .removeEntry _ | .takeAll => k.leaving = 0
  | .leavingUnsettled => k.told = false
  | .forgetLeaving => k.told = true
  | .setGone => k.Tidy
  | .session (.consume _ _) => False
  | _ => True

end Desk

def desk : Protocol Op Desk where
  next := Desk.next
  allows := Desk.allows
  expects _ _ := True

/-- A function that holds nothing before and behind it. -/
abbrev Neat (p : DriverM α) : Prop :=
  ∀ k : Desk, k.Working → Follows desk (fun _ k => k.Working) (fun _ k => k.Working) p k

/-! ## Blocks -/

theorem next_of_plain {op : Op α} (h : plain op = true) (k : Desk) (answer : α) : k.next op answer = k := by
  cases op with
  | session call =>
    cases call with
    | submitRequest => cases h
    | _ => rfl
  | _ => first
    | rfl
    | cases h

theorem allows_of_plain {op : Op α} (h : plain op = true) {k : Desk} (hk : k.Working) : k.allows op := by
  cases op with
  | await | write | commit => exact hk
  | enterIncoming => exact hk.2.2.2.1
  | session call =>
    cases call with
    | consume => cases h
    | _ => exact True.intro
  | _ => first
    | exact True.intro
    | cases h

theorem follows_submit {k : Desk} (hsubmitting : k.submitting = false) (hassigned : k.assigned = none)
    (hcleared : k.cleared = false) (request : Request) :
    Follows desk (fun _ k' => k' = k) (fun _ _ => False) (submit request) { k with submitting := true } := by
  have hclosed : { k with submitting := false } = k := by
    cases k
    simp_all
  rw [submit]
  split
  · exact ⟨True.intro, fun _ _ => hclosed⟩
  refine follows_bind.mpr ?_
  rw [submitRequest]
  split
  · exact ⟨True.intro, fun _ _ => hclosed⟩
  refine ⟨True.intro, fun answer _ => ?_⟩
  cases answer with
  | error => exact ⟨True.intro, fun _ _ => hclosed⟩
  | ok stream =>
    refine ⟨⟨rfl, rfl, hcleared⟩, fun unwanted _ => ?_⟩
    have hentered : { k with submitting := false, assigned := none } = k := by
      cases k
      simp_all
    show Follows desk _ _ _ { k with submitting := false, assigned := none }
    rw [hentered]
    cases unwanted with
    | false => exact rfl
    | true =>
      refine ⟨True.intro, fun answer _ => ?_⟩
      cases answer with
      | ok => exact rfl
      | error => exact ⟨True.intro, fun _ _ => hclosed⟩

theorem follows_submitEach (n : ℕ) {k : Desk} (hk : k.Working) :
    Follows desk (fun _ k' => k' = k) (fun _ _ => False) (submitEach n) { k with hand := n } := by
  obtain ⟨⟨hhand, hsubmitting, hleaving⟩, hassigned, hgone, hcleared, hswept⟩ := hk
  induction n with
  | zero =>
    cases k
    simp_all [submitEach]
  | succ n ih =>
    refine ⟨hsubmitting, fun answer _ => ?_⟩
    cases answer with
    | none =>
      have hclosed : { k with hand := n, submitting := false } = { k with hand := n } := by simp [hsubmitting]
      show Follows desk _ _ _ { k with hand := n, submitting := false }
      rw [hclosed]
      exact ih
    | some request =>
      show Follows desk _ _ (submit request >>= fun _ => submitEach n) _
      refine follows_bind.mpr ?_
      have hsubmit := follows_submit (k := { k with hand := n }) hsubmitting hassigned hcleared request
      exact hsubmit.mono (fun _ _ heq => heq ▸ ih) fun _ _ h => h

theorem neat_submitAll : Neat (advance .client) := by
  intro k hk
  refine ⟨hk.1, fun n _ => ?_⟩
  have heq : k.next .drainQueue n = { k with hand := n } := by
    obtain ⟨-, -, hgone, -, hswept⟩ := hk
    simp [Desk.next, hgone, hswept]
  show Follows desk _ _ _ (k.next .drainQueue n)
  rw [heq]
  exact (follows_submitEach n hk).mono (fun _ _ h => h ▸ hk) fun _ _ h => h.elim

theorem neat_applyShutdown : Neat applyShutdown := by
  intro k hk
  refine ⟨True.intro, fun answer _ => ?_⟩
  rcases answer with _ | ⟨_ | _, code⟩
  · exact hk
  · refine ⟨True.intro, fun answer _ => ?_⟩
    cases answer with
    | ok => exact hk
    | error => exact hk
  · refine ⟨True.intro, fun lastStream _ => ⟨True.intro, fun answer _ => ?_⟩⟩
    cases answer with
    | ok => exact hk
    | error => exact hk

theorem neat_refuseOne (stream code : ℕ) : Neat (refuseOne stream code) := by
  intro k hk
  refine ⟨hk.1.2.2, fun removed _ => ?_⟩
  cases removed with
  | false => exact hk
  | true => exact ⟨True.intro, fun _ _ => ⟨True.intro, fun _ _ => ⟨rfl, fun _ _ => ⟨⟨hk.1.1, hk.1.2.1, rfl⟩, hk.2⟩⟩⟩⟩

theorem neat_closeStream (stream code : ℕ) (failure : Option Error) : Neat (closeStream stream code failure) := by
  intro k hk
  refine ⟨hk.1.2.2, fun removed _ => ?_⟩
  cases removed with
  | false => exact hk
  | true =>
    refine ⟨rfl, fun unsettled _ => ?_⟩
    cases unsettled with
    | true => exact ⟨True.intro, fun _ _ => ⟨True.intro, fun _ _ => ⟨rfl, fun _ _ => ⟨⟨hk.1.1, hk.1.2.1, rfl⟩, hk.2⟩⟩⟩⟩
    | false =>
      cases failure with
      | some reported => exact ⟨True.intro, fun _ _ => ⟨True.intro, fun _ _ => ⟨rfl, fun _ _ => ⟨⟨hk.1.1, hk.1.2.1, rfl⟩, hk.2⟩⟩⟩⟩
      | none => exact ⟨True.intro, fun _ _ => ⟨rfl, fun _ _ => ⟨⟨hk.1.1, hk.1.2.1, rfl⟩, hk.2⟩⟩⟩

/-! ## Passes -/

/-- The blocks, as calls. -/
inductive Block : ⦃γ : Type⦄ → DriverM γ → Prop
  | submitAll : Block (advance .client)
  | applyShutdown : Block applyShutdown
  | refuseOne (stream code : ℕ) : Block (refuseOne stream code)
  | closeStream (stream code : ℕ) (failure : Option Error) : Block (closeStream stream code failure)

theorem blocks (role : Role) : Blocks role Block fun {β} (op : Op β) => plain op = true where
  plain _ hop := hop
  submitAll := composed_call .submitAll
  applyShutdown := composed_call .applyShutdown
  refuseOne _ _ := composed_call (.refuseOne ..)
  closeStream _ _ _ := composed_call (.closeStream ..)

theorem neat_run [Http] (role : Role) (fuel : ℕ) : Neat (run role fuel) := by
  intro k hk
  refine follows_of_composed (K := Desk.Working) ?_ ?_ (composed_run (blocks role) fuel) hk
  · intro β op k hplain hk
    refine ⟨allows_of_plain hplain hk, fun answer => ?_⟩
    show (k.next op answer).Working
    rwa [next_of_plain hplain]
  · intro γ p k hblock hk
    cases hblock with
    | submitAll => exact neat_submitAll k hk
    | applyShutdown => exact neat_applyShutdown k hk
    | refuseOne stream code => exact neat_refuseOne stream code k hk
    | closeStream stream code failure => exact neat_closeStream stream code failure k hk

/-! ## The guard -/

/-- The guard has emptied the registry and drained the queue, and nothing is left in its hands. -/
def Desk.Finished (role : Role) (k : Desk) : Prop := k.Tidy ∧ k.cleared = true ∧ (role = .client → k.swept = true)

theorem follows_closeEach (n : ℕ) {k : Desk} (hleaving : k.leaving = n) :
    Follows desk (fun _ k' => k' = { k with leaving := 0, told := k'.told }) (fun error _ => nomatch error)
      (closeEach n) k := by
  induction n generalizing k with
  | zero =>
    show k = _
    cases k
    simp_all
  | succ n ih =>
    refine ⟨True.intro, fun _ _ => ⟨True.intro, fun _ _ => ⟨rfl, fun _ _ => ?_⟩⟩⟩
    refine ih (k := { k with leaving := k.leaving - 1, told := false }) ?_
    show k.leaving - 1 = n
    omega

theorem follows_failEach (n : ℕ) {k : Desk} (hhand : k.hand = n) :
    Follows desk (fun _ k' => k' = { k with hand := 0 }) (fun error _ => nomatch error) (failEach n) k := by
  induction n generalizing k with
  | zero =>
    show k = _
    cases k
    simp_all
  | succ n ih =>
    refine ⟨True.intro, fun _ _ => ?_⟩
    refine ih (k := { k with hand := k.hand - 1 }) ?_
    show k.hand - 1 = n
    omega

theorem follows_driverGuard (role : Role) {k : Desk} (hk : k.Working) :
    Follows desk (fun _ k => k.Finished role) (fun error _ => nomatch error) (driverGuard role) k := by
  obtain ⟨htidy, hassigned, hgone, hcleared, hswept⟩ := hk
  refine ⟨htidy, fun _ _ => ⟨htidy.2.2, fun n _ => ?_⟩⟩
  show Follows desk _ _ (closeEach n >>= fun _ => abandon role) _
  refine follows_bind.mpr ?_
  refine Follows.mono (follows_closeEach n rfl) ?_ fun error _ => nomatch error
  rintro _ k' hk'
  rw [hk']
  cases role with
  | client =>
    refine ⟨⟨htidy.1, htidy.2.1, rfl⟩, fun n _ => ?_⟩
    show Follows desk _ _ (failEach n) _
    refine Follows.mono (follows_failEach n rfl) ?_ fun error _ => nomatch error
    rintro _ k'' rfl
    exact ⟨⟨rfl, htidy.2.1, rfl⟩, rfl, fun _ => rfl⟩
  | server => exact ⟨True.intro, fun _ _ => ⟨⟨htidy.1, htidy.2.1, rfl⟩, rfl, nofun⟩⟩

/-! ## Connections -/

theorem discipline [Http] (role : Role) (fuel : ℕ) : Discipline (connection (δ := δ) (τ := τ) (η := η) role fuel) desk
    Desk.Working (Desk.Finished role) (fun _ _ => True) where
  cleanup _ hk := follows_driverGuard role hk
  yields op k hyields hallows := by
    cases op with
    | await | write | commit => exact hallows
    | _ => cases hyields
  program k hk := (neat_run role fuel k hk).mono (fun _ _ h => h) fun _ _ h => ⟨True.intro, h⟩

end Ngnet.Http2Discipline
