import Ngnet.Http3Replay
import Ngnet.Http3Settlement

/-!
# What a poll of the driver applies

A poll is what the driver performs from one await to the next. One that gets as far as the shared work
has taken a batch of events and applied both, and one that parks has found nothing to apply. A poll that
stops before, while it binds, waits for a request stream or transmits, leaves what was queued where it is.
-/

namespace Ngnet.Http3Polls
open QmuxVarints QmuxStreams Http3Heads Http3Handles Http3Conn Http3Driver Http3Passes InterleavedPrograms
open OperationTraces Http3Operations Http3DriverSteps Http3Settlement
open QmuxConnection (Poll)
open QmuxHttp3Join (QuicEvent WriteOutcome)

variable {β ν η α : Type}

def isAwait : Op β ν α → Bool
  | .await => true
  | _ => false

/-- The driver stands at an await. -/
def atAwait : Stage (Op β ν) Error Unit → Bool
  | .running (.act op _) => isAwait op
  | _ => false

theorem exists_of_atAwait {stage : Stage (Op β ν) Error Unit} (h : atAwait stage = true) :
    ∃ next, stage = .running (.act .await next) := by
  rcases stage with (_ | _ | _ | ⟨op, next⟩) | _ | _
  all_goals try cases h
  cases op with
  | await => exact ⟨next, rfl⟩
  | _ => cases h

/-- The operation takes the work that is queued. -/
def drains : Op β ν α → Bool
  | .drainWork => true
  | _ => false

/-! ## The structure of a pass -/

inductive Intakes [Nghttp3 ν] (role : Role) (config : Http3Passes.Config) : ⦃γ : Type⦄ → DriverM β ν γ → Prop
  | intake : Intakes role config (intake role config)

section Structure
variable [Nghttp3 ν]

theorem composed_of_intakes [Http] (role : Role) (config : Http3Passes.Config) (fuel : ℕ) :
    Composed (Intakes role config) (fun _ op => drains op = false) (run role config fuel : DriverM β ν Unit) := by
  have hday : Everyday (β := β) (ν := ν) fun _ op => drains op = false := by
    refine ⟨fun op hop => ?_, fun f _ => rfl⟩
    cases op with
    | drainWork => cases hop
    | _ => rfl
  refine composed_run hday rfl rfl (fun stream closed => ?_) (fun write offers => ?_) ?_ (composed_call .intake)
  · exact composed_closeStream hday (fun _ _ => ⟨rfl, fun _ _ => rfl⟩) (fun _ => rfl) stream closed
  · exact composed_writeNext hday ⟨rfl, fun _ _ => rfl⟩ (fun _ _ => rfl) (fun _ _ => rfl) (fun _ => rfl)
      (fun _ => rfl) write 2 offers
  · exact composed_park hday rfl (fun _ _ => rfl) rfl rfl (fun _ => rfl) role fuel false

theorem composed_intake_of_not_await (role : Role) (config : Http3Passes.Config) :
    Composed (fun _ _ => False) (fun _ op => isAwait op = false) (intake role config : DriverM β ν _) := by
  have hday : Everyday (β := β) (ν := ν) fun _ op => isAwait op = false := by
    refine ⟨fun op hop => ?_, fun f _ => rfl⟩
    cases op with
    | await => cases hop
    | _ => rfl
  refine composed_intake hday rfl (composed_takeEvents rfl (fun _ _ => rfl) rfl config) fun events => ?_
  refine composed_applyEvents hday (fun stream bytes delivered => ?_) (fun stream closed => ?_) (fun stream bytes fin => ?_)
    role events
  · exact composed_applyRelease hday (fun _ _ => ⟨rfl, fun _ _ => rfl⟩) stream bytes delivered
  · exact composed_closeStream hday (fun _ _ => ⟨rfl, fun _ _ => rfl⟩) (fun _ => rfl) stream closed
  · exact composed_read hday (fun _ _ _ => ⟨rfl, fun _ _ => rfl⟩) stream bytes fin

variable {role : Role} {config : Http3Passes.Config} {t : List (Performed (Op β ν))}

theorem not_inside_intake {γ : Type} {p p' : DriverM β ν γ}
    {f : γ → DriverM β ν Unit} {next : Unit → DriverM β ν Unit}
    (hp : Intakes role config p) (hpath : Leads p t p') (hunfinished : ∀ a, p' ≠ .done a) :
    p'.bind f ≠ .act .await next := by
  cases hp with
  | intake =>
    cases p' with
    | done a => exact (hunfinished a rfl).elim
    | fail error => exact nofun
    | outOfFuel => exact nofun
    | act op next' =>
      rintro ⟨⟩
      exact nomatch (composed_intake_of_not_await role config).next () hpath

theorem intake_of_drains {p q : DriverM β ν Unit}
    {next : Unit → DriverM β ν Unit}
    (h : Passage (Intakes role config) (fun _ op => drains op = false) p t q) (hq : q = .act .await next)
    (hdrains : ∃ x ∈ t, drains x.op = true) :
    ∃ before t' after taken, t = before ++ t' ++ after ∧ Leads (intake role config) t' (.done taken) := by
  induction h with
  | here => simp at hdrains
  | act hop _ ih =>
    obtain ⟨x, hx, hdrain⟩ := hdrains
    rcases List.mem_cons.mp hx with rfl | hx
    · exact absurd hdrain (by simp [hop])
    · obtain ⟨before, t', after, taken, rfl, hpath⟩ := ih hq ⟨x, hx, hdrain⟩
      exact ⟨_ :: before, t', after, taken, rfl, hpath⟩
  | @through _ _ _ a t t' _ hp hpath _ _ =>
    cases hp with
    | intake => exact ⟨[], t, t', a, rfl, hpath⟩
  | inside hp hpath hunfinished => exact (not_inside_intake hp hpath hunfinished hq).elim

theorem drains_of_intake {taken : List QuicEvent × List (StreamId × ℕ)}
    (h : Leads (intake role config) t (.done taken)) : ∃ x ∈ t, drains x.op = true := by
  obtain ⟨t₁, events, rest₁, rfl, -, h⟩ := leads_bind_done h
  obtain ⟨t₂, unheard, rest₂, rfl, -, h⟩ := leads_bind_done h
  obtain ⟨t₃, _, rest₃, rfl, -, h⟩ := leads_bind_done h
  obtain ⟨t₄, _, rest₄, rfl, hwork, -⟩ := leads_bind_done h
  obtain ⟨t₅, _, rest₅, rfl, hdrain, -⟩ := leads_bind_done hwork
  cases hdrain with
  | cons _ => exact ⟨⟨.drainWork, ()⟩, by simp, rfl⟩

end Structure

/-! ## Queued work -/

section Queued
variable [QuicConnection β] [Nghttp3 ν] [Handlers η]

theorem hasWork_reset {inner : Inner} (h : inner.hasWork = true) (stream : StreamId) (code : ℕ) :
    (inner.reset stream code).hasWork = true := by
  rw [Inner.reset]
  split
  · exact h
  · simp [Inner.hasWork]

theorem hasWork_applyOp {w : World β ν η} {op : Op β ν α} (hop : drains op = false)
    (h : w.common.inner.hasWork = true) : (applyOp w op).2.common.inner.hasWork = true := by
  cases op with
  | drainWork => cases hop
  | reset stream code => exact hasWork_reset h stream code
  | callback call =>
    cases call with
    | stopSending stream code | resetStream stream code => simp [applyOp, World.onCommon, Common.modifyInner,
        Inner.pushAction, Inner.hasWork]
    | _ => exact h
  | returnCredit =>
    rw [applyOp]
    split
    · exact h
    · exact h
  | deliverData =>
    rw [applyOp]
    dsimp only
    split
    · rename_i stream bytes taken htaken
      obtain ⟨exchanges, heq⟩ := driver_onIncoming (w.onDriver fun d => { d with taken }) stream (·.push bytes)
      rw [heq]
      exact h
    · exact h
  | deliverEnd stream =>
    obtain ⟨exchanges, heq⟩ := driver_onIncoming w stream (·.endOfMessage)
    rw [applyOp, heq]
    exact h
  | deliverTrailers stream fields =>
    obtain ⟨exchanges, heq⟩ := driver_onIncoming w stream (·.setTrailers fields)
    rw [applyOp, heq]
    exact h
  | completeSlot stream head =>
    obtain ⟨exchanges, heq⟩ := driver_onSlot w stream (·.complete head)
    rw [applyOp, heq]
    exact h
  | retireSlot stream error =>
    rw [applyOp]
    split
    · exact h
    · rename_i entry _
      obtain ⟨exchanges, heq⟩ := common_failSlots w.common entry.slot error
      dsimp only
      rw [heq]
      exact h
  | abandonHandlers =>
    obtain ⟨exchanges, heq, -⟩ := trips_eq w.common w.driver.cancels
    simp only [applyOp, heq]
    exact h
  | retireBody | failLeaving | abandonNext | cancel | refuse =>
    rw [applyOp]
    dsimp only
    split
    · exact h
    · exact h
  | enterHand =>
    rw [applyOp, World.enterHand]
    split
    · exact h
    · exact h
  | finishEntry | pop | takeEnding =>
    rw [applyOp]
    split
    · exact h
    · exact h
  | leavingSettled | admitRequest =>
    rw [applyOp]
    split
    · exact h
    split
    · exact h
    · exact h
  | pollHandler stream =>
    rw [applyOp]
    split
    · dsimp only
      split
      · exact h
      · exact h
    · exact h
  | _ => exact h

theorem hasWork_addCredit (inner : Inner) (stream : StreamId) (bytes : ℕ) :
    (inner.addCredit stream bytes).hasWork = true := by
  cases hcredit : inner.credit with
  | nil => simp [Inner.addCredit, Inner.hasWork, hcredit, QmuxHttp3Join.addTo]
  | cons entry rest =>
    simp only [Inner.addCredit, Inner.hasWork, hcredit, QmuxHttp3Join.addTo]
    split <;> simp

theorem hasWork_wakeDriver {c : Common} (h : c.inner.hasWork = true) : c.wakeDriver.inner.hasWork = true := by
  rw [Common.wakeDriver]
  split
  · exact h
  · exact h

theorem hasWork_act {c : Common} (action : Common.Action) (h : c.inner.hasWork = true) :
    (c.act action).inner.hasWork = true := by
  cases action with
  | sendRequest request =>
    rw [Common.act, Common.sendRequest]
    split
    · exact h
    · exact h
  | stepFuture id =>
    rw [Common.act, Common.stepFuture]
    split
    · exact h
    · exact h
    · exact h
    · split
      · split
        · exact h
        · exact h
      · exact h
    · exact hasWork_wakeDriver h
    · split
      · exact h
      · exact h
    · exact h
    · exact h
    · exact hasWork_reset h _ _
    · exact hasWork_wakeDriver h
    · exact h
    · exact h
    · exact h
    · exact h
  | pollFuture id =>
    rw [Common.act, Common.pollFuture]
    split
    · exact h
    · exact h
  | dropFuture id =>
    rw [Common.act, Common.dropFuture]
    split
    · exact h
    · exact h
    · exact h
  | pollBody id =>
    rw [Common.act, Common.pollBody]
    split
    · split
      · exact h
      · exact h
    · exact h
  | stepBody id =>
    rw [Common.act, Common.stepBody]
    split
    · exact h
    · dsimp only
      split
      · exact h
      · exact h
      · exact hasWork_addCredit _ _ _
      · exact hasWork_wakeDriver h
      · exact h
      · exact h
      · exact hasWork_addCredit _ _ _
      · exact hasWork_wakeDriver h
      · exact hasWork_reset h _ _
      · exact hasWork_wakeDriver h
  | dropBody id =>
    rw [Common.act, Common.dropBody]
    split
    · split
      · exact h
      · exact h
    · exact h
  | cloneHandle | storeRefusing =>
    rw [Common.act]
    split
    · exact h
    · exact h
  | dropHandle => exact h
  | shutdown =>
    rw [Common.act]
    split
    · exact h
    · simp [Inner.hasWork]
  | markReady stream =>
    simp only [Common.act, Inner.markReady]
    split
    · exact h
    · simp [Inner.hasWork]
  | wakeHandler stream => exact h
  | wake =>
    rw [Common.act]
    split
    · exact h
    · exact hasWork_wakeDriver h

end Queued

/-! ## Polls -/

section Polls
variable [QuicConnection β] [Nghttp3 ν] [Handlers η] [Http] {role : Role} {config : Http3Passes.Config} {fuel : ℕ}
  {backend : β} {raw : ν} {handlers : η} {before during : List (Choice Common.Action)}
  {t : List (Performed (Op β ν))}

/-- Behind the run `before` the driver stands at an await, is polled, performs `t` while handles act as in
`during`, and returns `Pending` at its next await. -/
structure IsPoll (role : Role) (config : Http3Passes.Config) (fuel : ℕ) (w : World β ν η)
    (before during : List (Choice Common.Action)) (t : List (Performed (Op β ν))) : Prop where
  began : atAwait ((connection role config fuel).reached w before).stage = true
  ended : atAwait ((connection role config fuel).reached w (before ++ .own :: during)).stage = true
  performed : trace (connection role config fuel) w (before ++ .own :: during) =
    trace (connection role config fuel) w before ++ ⟨.await, ()⟩ :: t
  once : ∀ x ∈ t, isAwait x.op = false

/-- The backend has no event for this poll: it has none as the poll begins, or answers so when asked. -/
def NoEvent (w : World β ν η) (t : List (Performed (Op β ν))) : Prop :=
  (QuicConnection.call .pollEvent w.driver.backend).1 = .pending ∨ ⟨.backend .pollEvent, .pending⟩ ∈ t

/-- What waited as the poll began has been applied: the poll has taken a batch of events and the queued
work and applied both, or there was neither. -/
def Applied (role : Role) (config : Http3Passes.Config) (w : World β ν η) (t : List (Performed (Op β ν))) : Prop :=
  (∃ first whole last taken, t = first ++ whole ++ last ∧ Leads (intake role config) whole (.done taken)) ∨
    w.common.inner.hasWork = false ∧ NoEvent w t

/-- The poll drains the queued work, or finds nothing to do where it parks, or begins with nothing
waiting. -/
def GetsThrough (w : World β ν η) (t : List (Performed (Op β ν))) : Prop :=
  (∃ x ∈ t, drains x.op = true) ∨ (⟨.refreshDriver, false⟩ ∈ t ∧ ⟨.backend .pollEvent, .pending⟩ ∈ t) ∨
    w.common.inner.hasWork = false ∧ NoEvent w t

/-- What the driver saw as it looked for queued work under its waker. -/
def lookedFor : Performed (Op β ν) → Option Bool
  | ⟨.refreshDriver, pending⟩ => some pending
  | _ => none

omit [Http] in
theorem seen_of_queued {S : System (Op β ν) Error Unit (World β ν η) Common.Action}
    (hact : ∀ action w, S.act action w = w.onCommon (·.act action)) {choices : List (Choice Common.Action)}
    {c : InterleavedPrograms.Config (Op β ν) Error Unit (World β ν η)} (hwork : c.state.common.inner.hasWork = true)
    (hkept : ∀ x ∈ traceFrom S c choices, drains x.op = false) : ⟨.refreshDriver, false⟩ ∉ traceFrom S c choices := by
  induction choices generalizing c with
  | nil => exact List.not_mem_nil
  | cons choice rest ih =>
    rw [traceFrom] at hkept ⊢
    obtain ⟨_, op, -, hperformed, hstate⟩ | ⟨action, -, hperformed, hstate⟩ | ⟨hperformed, hstate⟩ :=
      step_cases (S := S) c choice
    · rw [hperformed] at hkept ⊢
      have hop : drains op = false := hkept _ (List.mem_append_left _ (List.mem_singleton_self _))
      have hnext := ih (c := S.step c choice) (hstate ▸ hasWork_applyOp hop hwork)
        fun x hx => hkept x (List.mem_append_right _ hx)
      intro hmem
      rcases List.mem_cons.mp hmem with heq | hmem
      · have hlooked := congrArg lookedFor heq
        cases op with
        | refreshDriver => exact absurd (hwork.symm.trans (Option.some.inj hlooked).symm) (by simp)
        | _ => cases hlooked
      · exact hnext hmem
    · rw [hperformed] at hkept ⊢
      exact ih (by rw [hstate, hact]; exact hasWork_act action hwork) hkept
    · rw [hperformed] at hkept ⊢
      exact ih (by rwa [hstate]) hkept

omit [QuicConnection β] in
theorem composed_of_await {p : DriverM β ν Unit} (h : Leads (run role config fuel) (t ++ [⟨.await, ()⟩]) p) :
    Composed (Intakes role config) (fun _ op => drains op = false) p := by
  obtain hleft | ⟨_, p₁, p', f, first, within, hcall, hpath, hunfinished, rfl, heq, hwithin⟩ :=
    (composed_of_intakes role config fuel).leads h
  · exact hleft
  · obtain ⟨within, last, rfl⟩ := List.eq_nil_or_concat within |>.resolve_left hwithin
    rw [List.concat_eq_append, ← List.append_assoc] at heq
    obtain ⟨-, hlast⟩ := List.append_inj' heq rfl
    cases hcall with
    | intake =>
      have hnot := (composed_intake_of_not_await role config).only hpath last (by simp)
      rw [← List.singleton_inj.mp hlast] at hnot
      cases hnot

end Polls

/-! ## A peer that opens no stream -/

/-- A scripted backend whose peer lets no request stream be opened. -/
structure Limited where
  script : Script := {}

instance : QuicConnection Limited where
  call
    | .pollOpenBi, s => (.pending, s)
    | .pollEvent, s =>
      let (answer, script) := QuicConnection.call .pollEvent s.script
      (answer, { s with script })
    | .pollOpenUni, s =>
      let (answer, script) := QuicConnection.call .pollOpenUni s.script
      (answer, { s with script })
    | .pollFlush, s => (.ready (.ok ()), s)
    | .instruct _, s => (.ok (), s)
  pollTransmit s := .returns (.ready (.ok ())) s

attribute [local instance] accepting

def limitedClient : System (Op Limited Parser) Error Unit (World Limited Parser Silent) Common.Action :=
  connection .client {} 9

def limitedWorld : World Limited Parser Silent := newWorld .client {} {} .silent

/-- A request waits for a stream, when the caller asks for a shutdown. -/
def stalled : List (Choice Common.Action) :=
  [.other (.sendRequest getRequest)] ++ List.replicate 4 (.other (.stepFuture 0)) ++ List.replicate 38 .own ++
    [.other .shutdown]

end Ngnet.Http3Polls
