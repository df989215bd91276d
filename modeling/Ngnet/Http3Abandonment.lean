import Ngnet.Http3Lifetimes
import Ngnet.Http3Settlement

/-!
# Requests that their callers abandoned

A response future that is dropped fails the slot and then reads the stream that the slot was bound to.
The driver looks whether the slot is settled, submits the request and then binds the slot. If the
future reads while the driver is between its look and the binding, each side misses the other: the
request is sent, and nobody resets it.
-/

namespace Ngnet.Http3Abandonment
open QmuxVarints QmuxStreams Http3Heads Http3Handles Http3Conn Http3Driver Http3Passes InterleavedPrograms
open Http3DriverSteps Http3HandleSteps Http3Discipline Http3Tracking Http3Placement Http3Lifetimes
open Http3Settlement

variable {β ν η α : Type}

/-- The driver has looked at the command, which was not settled, and has not bound its slot yet. -/
def Submitting (d : DriverState β ν η) (id : ℕ) : Prop :=
  ∃ hand, d.hand = some hand ∧ hand.admitted = true ∧ hand.command.exchange = id

/-- How far the drop of a future has got, `queued` telling of the resets that were queued behind its
beginning. -/
def Dropping (w : World β ν η) (queued : StreamId → Prop) (id : ℕ) : Prop :=
  let e := w.common.exchanges id
  match e.future with
  | .dropFailing => True
  | .dropStream => e.slot.settled = true
  | .dropReset stream => e.slot.settled = true ∧ e.slot.stream = some stream
  | .dropWaking => e.slot.settled = true ∧ ∃ stream, e.slot.stream = some stream ∧ queued stream
  | .gone => e.slot.settled = true ∧ ((∃ stream, e.slot.stream = some stream ∧ queued stream) ∨
    e.slot.stream = none ∧ ¬Submitting w.driver id)
  | _ => False

/-- The future does not look for the stream of a request that is just being submitted. -/
def looksInTime (action : Common.Action) (w : World β ν η) : Bool :=
  match action, w.driver.hand with
  | .stepFuture id, some hand =>
    !(hand.admitted && decide (hand.command.exchange = id) && decide ((w.common.exchanges id).future = .dropStream))
  | _, _ => true

section Steps
variable {w : World β ν η} {queued queued' : StreamId → Prop} {id : ℕ}

theorem Dropping.present (h : Dropping w queued id) : (w.common.exchanges id).future ≠ .absent := by
  intro habsent
  simp [Dropping, habsent] at h

theorem Dropping.of_same {w' : World β ν η} (h : Dropping w queued id)
    (hqueued : ∀ stream, queued stream → queued' stream)
    (hfuture : (w'.common.exchanges id).future = (w.common.exchanges id).future)
    (hstream : (w'.common.exchanges id).slot.stream = (w.common.exchanges id).slot.stream)
    (hsettled : (w.common.exchanges id).slot.settled = true → (w'.common.exchanges id).slot.settled = true)
    (hsubmitting : Submitting w'.driver id → Submitting w.driver id ∨ (w.common.exchanges id).slot.settled = false) :
    Dropping w' queued' id := by
  simp only [Dropping, hfuture, hstream] at h ⊢
  cases hphase : (w.common.exchanges id).future with
  | dropFailing => trivial
  | dropStream =>
    simp only [hphase] at h
    exact hsettled h
  | dropReset stream =>
    simp only [hphase] at h
    exact ⟨hsettled h.1, h.2⟩
  | dropWaking =>
    simp only [hphase] at h
    obtain ⟨hset, stream, hbound, hreset⟩ := h
    exact ⟨hsettled hset, stream, hbound, hqueued stream hreset⟩
  | gone =>
    simp only [hphase] at h
    obtain ⟨hset, ⟨stream, hbound, hreset⟩ | ⟨hunbound, hnot⟩⟩ := h
    · exact ⟨hsettled hset, .inl ⟨stream, hbound, hqueued stream hreset⟩⟩
    · refine ⟨hsettled hset, .inr ⟨hunbound, fun hsub => ?_⟩⟩
      obtain hbefore | hunsettled := hsubmitting hsub
      · exact hnot hbefore
      · rw [hset] at hunsettled
        cases hunsettled
  | _ =>
    simp only [hphase] at h

/-! ## The driver -/

variable [QuicConnection β] [Nghttp3 ν] [Handlers η] {strict : Prop} {k : Desk}

theorem submitting_applyOp {op : Op β ν α} (htracks : Tracks strict w k) (hallows : k.allows strict .client op)
    (hsub : Submitting (applyOp w op).2.driver id) :
    Submitting w.driver id ∨ (w.common.exchanges id).slot.settled = false := by
  by_cases hhandles : handles op = false
  · have hsame := sameHand_applyOp w hhandles
    rw [Submitting, hsame.hand] at hsub
    exact .inl hsub
  obtain ⟨hand, hhand, hadmitted, rfl⟩ := hsub
  cases op with
  | giveStream stream => exact .inl ⟨hand, hhand, hadmitted, rfl⟩
  | pop =>
    rw [applyOp] at hhand
    split at hhand
    · cases hhand
      cases hadmitted
    · exact .inl ⟨hand, hhand, hadmitted, rfl⟩
  | admitRequest =>
    obtain ⟨command, stream, hpopped⟩ := hand_popped (htracks.hand.trans hallows)
    simp only [applyOp, hpopped] at hhand
    split at hhand
    · cases hhand
    · rename_i hsettled
      cases hhand
      exact .inr (Bool.eq_false_iff.mpr hsettled)
  | refuse error =>
    obtain ⟨command, stream, hheld⟩ := hand_admitted (htracks.hand.trans hallows)
    simp [applyOp, hheld] at hhand
  | enterHand ending =>
    obtain ⟨command, stream, hheld⟩ := hand_admitted (htracks.hand.trans hallows)
    simp [applyOp, World.enterHand, hheld] at hhand
  | _ => exact (hhandles rfl).elim

theorem dropping_applyOp (h : Dropping w queued id) (hliving : Living w) {op : Op β ν α} (htracks : Tracks strict w k)
    (hallows : k.allows strict .client op) (hqueued : ∀ stream, queued stream → queued' stream) :
    Dropping (applyOp w op).2 queued' id := by
  have hsubmitting : Submitting (applyOp w op).2.driver id →
      Submitting w.driver id ∨ (w.common.exchanges id).slot.settled = false := submitting_applyOp htracks hallows
  by_cases hregisters : registers op = false
  · have htouched := touched_applyOp w hregisters id
    exact h.of_same hqueued htouched.future htouched.stream htouched.settled hsubmitting
  cases op with
  | enterHand ending =>
    obtain ⟨command, stream, hhand⟩ := hand_admitted (htracks.hand.trans hallows)
    have hheld : Submitting w.driver command.exchange := ⟨_, hhand, rfl, rfl⟩
    have hunbound := (hliving.blank command.exchange (.inr (.inr (.inr ⟨_, hhand, rfl⟩)))).stream
    by_cases hid : id = command.exchange
    · have hself : (applyOp w (.enterHand ending)).2.common.exchanges command.exchange =
          { w.common.exchanges command.exchange with slot := (w.common.exchanges command.exchange).slot.bind stream } := by
        simp only [applyOp, World.enterHand, hhand, Common.modifySlot, exchanges_modify_self]
      subst hid
      simp only [Dropping, hself] at h ⊢
      cases hphase : (w.common.exchanges command.exchange).future with
      | dropFailing => trivial
      | dropStream =>
        simp only [hphase] at h
        exact h
      | dropReset | dropWaking | gone => simp [hphase, hunbound, hheld] at h
      | _ => simp only [hphase] at h
    · have hother : (applyOp w (.enterHand ending)).2.common.exchanges id = w.common.exchanges id := by
        simp only [applyOp, World.enterHand, hhand, Common.modifySlot, exchanges_modify_of_ne _ _ hid]
      refine h.of_same hqueued ?_ ?_ ?_ hsubmitting
      · rw [hother]
      · rw [hother]
      · rw [hother]
        exact fun h => h
  | openExchange => cases hallows
  | _ => exact (hregisters rfl).elim

/-! ## Handles -/

section
omit [QuicConnection β] [Nghttp3 ν] [Handlers η]

theorem reset_queued (inner : Inner) (stream : StreamId) (code : ℕ) :
    ∃ code', (stream, code') ∈ (inner.reset stream code).resets := by
  rw [Inner.reset]
  split
  · rename_i hany
    obtain ⟨⟨other, code'⟩, hmem, hother⟩ := List.any_eq_true.mp hany
    cases of_decide_eq_true hother
    exact ⟨code', hmem⟩
  · exact ⟨code, List.mem_append_right _ (List.mem_singleton_self _)⟩

theorem fail_settled (slot : Slot) (error : Error) : (slot.fail error).settled = true := by
  rw [Slot.fail, Slot.settle]
  split
  · assumption
  · rfl

theorem dropping_stepFuture (h : Dropping w queued id) (hfair : looksInTime (.stepFuture id) w = true)
    (hqueued : ∀ stream, queued stream → queued' stream)
    (hreset : ∀ stream code, (stream, code) ∈ (w.common.stepFuture id).inner.resets → queued' stream) :
    Dropping ⟨w.common.stepFuture id, w.driver⟩ queued' id := by
  simp only [Dropping] at h ⊢
  rw [Common.stepFuture] at hreset ⊢
  cases hphase : (w.common.exchanges id).future with
  | dropFailing =>
    simp only [Common.setFuture, Common.modifySlot, exchanges_modify_self]
    exact fail_settled _ _
  | dropStream =>
    simp only [hphase] at h
    simp only [Common.setFuture, exchanges_modify_self]
    cases hstream : (w.common.exchanges id).slot.stream with
    | some stream => exact ⟨h, rfl⟩
    | none =>
      refine ⟨h, .inr ⟨rfl, ?_⟩⟩
      rintro ⟨hand, hhand, hadmitted, hexchange⟩
      simp [looksInTime, hhand, hadmitted, hexchange, hphase] at hfair
  | dropReset stream =>
    simp only [hphase] at h hreset
    simp only [Common.setFuture, exchanges_modify_self]
    obtain ⟨code, hmem⟩ := reset_queued w.common.inner stream Common.requestCancelled
    exact ⟨h.1, stream, h.2, hreset stream code hmem⟩
  | dropWaking =>
    simp only [hphase] at h
    obtain ⟨hsettled, stream, hbound, hreset⟩ := h
    have hexchanges : w.common.wakeDriver.exchanges = w.common.exchanges := (Acts.wakeDriver_frame w.common).2.1
    simp only [Common.setFuture, exchanges_modify_self, hexchanges]
    exact ⟨hsettled, .inl ⟨stream, hbound, hqueued stream hreset⟩⟩
  | gone =>
    simp only [hphase] at h
    simp only [hphase]
    refine ⟨h.1, h.2.imp_left ?_⟩
    rintro ⟨stream, hbound, hreset⟩
    exact ⟨stream, hbound, hqueued stream hreset⟩
  | _ => simp only [hphase] at h

theorem dropping_act (h : Dropping w queued id) (hliving : Living w) {action : Common.Action}
    (hfair : looksInTime action w = true) (hqueued : ∀ stream, queued stream → queued' stream)
    (hreset : ∀ stream code, (stream, code) ∈ (w.common.act action).inner.resets → queued' stream) :
    Dropping (w.onCommon (·.act action)) queued' id := by
  by_cases hown : action = .stepFuture id
  · subst hown
    exact dropping_stepFuture h hfair hqueued hreset
  have hsame : ((w.common.act action).exchanges id).future = (w.common.exchanges id).future ∧
      ((w.common.act action).exchanges id).slot = (w.common.exchanges id).slot := by
    have hacts := acts_act w.common action
    generalize w.common.act action = c' at hacts ⊢
    cases hacts with
    | idle hframe hexchanges =>
      rw [hexchanges]
      exact ⟨rfl, rfl⟩
    | @sent request =>
      have hne : id ≠ w.common.created := by
        rintro rfl
        exact h.present (hliving.beyond _ le_rfl)
      simp [Function.update_of_ne hne]
    | @pushed id' request =>
      have hne : id ≠ id' := by
        rintro rfl
        exact hown rfl
      have hother : ((w.common.pushCommand ⟨request, id'⟩).setFuture id' .waking).exchanges id = w.common.exchanges id :=
        exchanges_modify_of_ne _ _ hne
      rw [hother]
      exact ⟨rfl, rfl⟩
    | @moved _ id' e' given _ hstep hframe hexchanges =>
      rw [hexchanges]
      by_cases hid : id = id'
      · subst hid
        rw [Function.update_self]
        cases hstep with
        | moved | refused | dropFailed | handedOver => exact (hown rfl).elim
        | waits hphase | answered hphase | failed hphase | dropped hphase | droppedLate hphase =>
          simp [Dropping, hphase] at h
        | _ => exact ⟨rfl, rfl⟩
      · rw [Function.update_of_ne hid]
        exact ⟨rfl, rfl⟩
  refine h.of_same hqueued hsame.1 (congrArg Slot.stream hsame.2) ?_ fun hsub => .inl hsub
  intro hsettled
  exact (congrArg Slot.settled hsame.2).trans hsettled

end

end Steps

/-! ## Runs -/

theorem begun_before {γ : Type} {l before after : List γ} {x : γ} (h : l ++ [x] = before ++ after) :
    before = l ++ [x] ∨ ∃ rest, l = before ++ rest := by
  induction after using List.reverseRecOn with
  | nil => exact .inl (by simpa using h.symm)
  | append_singleton rest last =>
    rw [← List.append_assoc] at h
    exact .inr ⟨rest, (List.append_inj' h rfl).1⟩

section Runs
variable [QuicConnection β] [Nghttp3 ν] [Handlers η] [Http] {config : Http3Passes.Config} {fuel : ℕ}
  {backend : β} {raw : ν} {handlers : η} {choices : List (Choice Common.Action)}

/-- A reset of this stream was queued in one of the states behind the steps `before`. -/
def ResetSince (S : System (Op β ν) Error Unit (World β ν η) Common.Action) (s : World β ν η)
    (before choices : List (Choice Common.Action)) (stream : StreamId) : Prop :=
  ∃ between rest, choices = before ++ between ++ rest ∧
    ∃ code, (stream, code) ∈ (S.reached s (before ++ between)).state.common.inner.resets

/-- A request whose future was dropped before it resolved, and the drop is over, is not being submitted and
never was, or a reset of its stream was queued since. -/
def NeverLeftRunning (S : System (Op β ν) Error Unit (World β ν η) Common.Action) (s : World β ν η)
    (choices : List (Choice Common.Action)) : Prop :=
  ∀ before after id, choices = before ++ after →
    ((S.reached s before).state.common.exchanges id).future = .dropFailing →
    ((S.reached s choices).state.common.exchanges id).future = .gone →
    ¬Submitting (S.reached s choices).state.driver id ∧
        ((S.reached s choices).state.common.exchanges id).slot.stream = none ∨
      ∃ stream, ((S.reached s choices).state.common.exchanges id).slot.stream = some stream ∧
        ResetSince S s before choices stream

omit [Http] in
theorem ResetSince.concat {S : System (Op β ν) Error Unit (World β ν η) Common.Action} {s : World β ν η}
    {before : List (Choice Common.Action)} {stream : StreamId} (h : ResetSince S s before choices stream)
    (choice : Choice Common.Action) : ResetSince S s before (choices ++ [choice]) stream := by
  obtain ⟨between, rest, heq, hreset⟩ := h
  exact ⟨between, rest ++ [choice], by simp [heq], hreset⟩

/-- If no future looks for the stream of a request that is just being submitted, no abandoned request is left
running. -/
theorem neverLeftRunning_reached (h : (connection .client config fuel).Careful (newWorld .client backend raw handlers)
    (fun _ _ => True) (fun action w => looksInTime action w = true) choices) :
    NeverLeftRunning (connection .client config fuel) (newWorld .client backend raw handlers) choices := by
  have hcareful := careful_invariant (I := fun w : World β ν η => Living w) living_newWorld ?_ ?_
    (careful_tracked False (fun _ _ _ hstrict => hstrict.elim) h)
  · have hdropping := history_invariant (I := fun choices => ∀ before after id, choices = before ++ after →
      (((connection .client config fuel).reached (newWorld .client backend raw handlers) before).state.common.exchanges
        id).future = .dropFailing →
      Dropping ((connection .client config fuel).reached (newWorld .client backend raw handlers) choices).state
        (ResetSince (connection .client config fuel) (newWorld .client backend raw handlers) before choices) id)
      ?_ ?_ ?_ ?_ hcareful
    · intro before after id heq hbegun hgone
      have hdrop := hdropping before after id heq hbegun
      simp only [Dropping, hgone] at hdrop
      exact hdrop.2.symm.imp_left fun ⟨hunbound, hnot⟩ => ⟨hnot, hunbound⟩
    · intro before after id heq hbegun
      obtain ⟨rfl, rfl⟩ := List.append_eq_nil_iff.mp heq.symm
      cases hbegun
    · intro α choices op hI ⟨⟨_, k, htracks, hallows⟩, hliving⟩ hnext before after id heq hbegun
      obtain hlast | ⟨rest, hearlier⟩ := begun_before heq
      · simp only [← hlast, Dropping, hbegun]
      · rw [hnext]
        exact dropping_applyOp (hI before rest id hearlier hbegun) hliving htracks hallows fun _ h => h.concat _
    · intro choices action hI ⟨hfair, hliving⟩ hnext before after id heq hbegun
      obtain hlast | ⟨rest, hearlier⟩ := begun_before heq
      · simp only [← hlast, Dropping, hbegun]
      · rw [hnext]
        refine dropping_act (hI before rest id hearlier hbegun) hliving hfair (fun _ h => h.concat _) ?_
        intro stream code hmem
        refine ⟨rest ++ [.other action], [], by simp [hearlier], code, ?_⟩
        rw [← List.append_assoc, ← hearlier, hnext]
        exact hmem
    · intro choices choice hI hnext before after id heq hbegun
      obtain hlast | ⟨rest, hearlier⟩ := begun_before heq
      · simp only [← hlast, Dropping, hbegun]
      · rw [hnext]
        exact (hI before rest id hearlier hbegun).of_same (fun _ h => h.concat _) rfl rfl (fun h => h) .inl
  · intro α op w hliving ⟨_, k, htracks, hallows⟩
    exact living_applyOp hliving htracks hallows
  · intro action w hliving _
    exact living_act hliving action

end Runs

/-! ## Two drops -/

attribute [local instance] accepting

/-- A request, `n` steps of the driver, and the future begins to be dropped. -/
def abandoning (n : ℕ) : List (Choice Common.Action) :=
  [.other (.sendRequest getRequest)] ++ List.replicate 4 (.other (.stepFuture 0)) ++ List.replicate n .own ++
    [.other (.dropFuture 0)]

/-- The drop is taken to its end, and the driver goes on. -/
def abandoned : List (Choice Common.Action) :=
  List.replicate 4 (.other (.stepFuture 0)) ++ List.replicate 12 .own

theorem neverLeftRunning_reached_bound :
    NeverLeftRunning scriptedClient (startOf [] []) (abandoning 40 ++ abandoned) :=
  neverLeftRunning_reached (careful_of_carefulFrom (by decide +kernel))

/-- The future looks for its stream when the driver has taken one and not bound it: the request is submitted
behind that, and its stream is never reset. -/
theorem abandoned_request_runs : ¬ NeverLeftRunning scriptedClient (startOf [] []) (abandoning 34 ++ abandoned) := by
  intro h
  have hunreset : ∀ n ∈ List.range 57, (scriptedClient.reached (startOf [] [])
      ((abandoning 34 ++ abandoned).take n)).state.common.inner.resets = [] := by decide +kernel
  have hbound : ((scriptedClient.reached (startOf [] []) (abandoning 34 ++ abandoned)).state.common.exchanges
      0).slot.stream = some (requestStream 0) := by decide +kernel
  obtain ⟨-, hunbound⟩ | ⟨stream, -, between, rest, heq, code, hmem⟩ :=
    h (abandoning 34) abandoned 0 rfl (by decide +kernel) (by decide +kernel)
  · rw [hbound] at hunbound
    cases hunbound
  · have htake : abandoning 34 ++ between = (abandoning 34 ++ abandoned).take (abandoning 34 ++ between).length := by
      rw [heq, List.take_left]
    have hlength : (abandoning 34 ++ between).length < 57 := by
      have htotal := congrArg List.length heq
      simp only [List.length_append] at htotal ⊢
      have hlong : (abandoning 34).length + abandoned.length = 56 := by decide
      omega
    rw [htake, hunreset _ (List.mem_range.mpr hlength)] at hmem
    cases hmem

end Ngnet.Http3Abandonment
