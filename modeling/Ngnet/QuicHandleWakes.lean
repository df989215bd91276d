import Ngnet.QuicHandlePolls

/-!
# Which events a QUIC handle can sleep through

A future looks at what it waits for, registers its waker, and looks again. What it does not look at again it
sleeps through if that happens in between. `Connecting` and `OpenStream` look at everything again; `ReadStream`
and `AcceptStream` do not look again whether the connection has ended, `Accepting` not whether the endpoint is
gone, and `Detaching` at nothing.
-/

namespace Ngnet.QuicHandleWakes
open QmuxVarints QmuxStreams InterleavedPrograms QuicHandlePolls
open QuicEndpoint hiding Op Action World
open QmuxRecordWriter (Waker)
open QmuxConnection (Poll)

variable {δ β : Type} {s s' : State δ} {c d : ℕ} {stream : StreamId} {waker : Waker}

/-! ## Events -/

/-- What a future can wait for. `news` is what a connection has observed and its handle has not taken in. -/
inductive Event
  | established (c : ℕ)
  | closed (c : ℕ)
  | opened (c : ℕ) (bidi : Bool)
  | news (c : ℕ)
  | readable (c : ℕ) (stream : StreamId)
  | pending (c : ℕ)
  | accepted
  | gone
  | detached (key : Option ℕ)
  deriving DecidableEq, Repr

namespace Event

/-- Who is woken for it. -/
def waiters : Event → Waiters
  | .established c | .closed c | .opened c _ | .news c | .readable c _ | .pending c => .connection c
  | .accepted | .gone => .endpoint
  | .detached _ => .queue

def Happened (s : State δ) : Event → Prop
  | .established c => (s.shareds c).established = true
  | .closed c => (s.shareds c).closed = true
  | .opened c bidi => ∃ event ∈ (s.shareds c).observed, (State.openedAs bidi event).isSome = true
  | .news c => (s.shareds c).observed ≠ []
  | .readable c stream => (((s.handles c).absorb (s.shareds c).observed).readable stream).isSome = true
  | .pending c => ((s.handles c).absorb (s.shareds c).observed).pendingStreams ≠ []
  | .accepted => ∃ c ∈ s.endpoint.accepted, (s.shareds c).established = true
  | .gone => s.endpoint.gone = true
  | .detached key => ∃ entry ∈ s.ready, entry.1 = key

instance (s : State δ) (event : Event) : Decidable (event.Happened s) :=
  match event with
  | .established _ | .closed _ | .readable _ _ | .gone => inferInstanceAs (Decidable (_ = true))
  | .opened _ _ | .accepted | .detached _ => List.decidableBEx _ _
  | .news _ | .pending _ => inferInstanceAs (Decidable (_ ≠ []))

end Event

/-- What a future waits for. -/
def awaits : Awaited → List Event
  | .connecting c => [.established c, .closed c]
  | .openStream c bidi => [.opened c bidi, .closed c]
  | .readStream c stream => [.readable c stream, .closed c]
  | .acceptStream c => [.pending c, .closed c]
  | .accepting => [.accepted, .gone]
  | .detaching none => [.detached none, .gone]
  | .detaching (some c) => [.detached (some c), .closed c, .gone]

/-- What it does not look at again once it has registered. -/
def neglects : Awaited → List Event
  | .connecting _ | .openStream _ _ => []
  | .readStream c _ | .acceptStream c => [.closed c]
  | .accepting => [.gone]
  | .detaching none => [.detached none, .gone]
  | .detaching (some c) => [.detached (some c), .closed c, .gone]

/-! ## What happens to events -/

section Slots
variable {slot : Incoming}

theorem ready_see (event : Observed) (h : slot.bytes ≠ [] ∨ slot.finished = true) :
    (slot.see stream event).bytes ≠ [] ∨ (slot.see stream event).finished = true := by
  cases event
  case data other bytes fin =>
    rw [Incoming.see]
    split
    · refine h.imp (fun hbytes => ?_) fun hfinished => ?_
      · exact List.append_ne_nil_of_left_ne_nil hbytes _
      · simp [hfinished]
    · exact h
  case closed other receiving sending =>
    rw [Incoming.see]
    split
    · exact .inr rfl
    · exact h
  case reset other code =>
    rw [Incoming.see]
    split
    · exact .inr rfl
    · exact h
  all_goals exact h

theorem ready_seeAll (events : List Observed) (h : slot.bytes ≠ [] ∨ slot.finished = true) :
    (events.foldl (·.see stream ·) slot).bytes ≠ [] ∨ (events.foldl (·.see stream ·) slot).finished = true := by
  induction events generalizing slot with
  | nil => exact h
  | cons event events ih => exact ih (ready_see event h)

theorem isSome_readable {h : Handle} : (h.readable stream).isSome = true ↔
    (h.slotOf stream).bytes ≠ [] ∨ (h.slotOf stream).finished = true := by
  constructor
  · intro hsome
    obtain ⟨slot, hslot⟩ := Option.isSome_iff_exists.mp hsome
    obtain ⟨rfl, hready⟩ := Handle.readable_eq_some.mp hslot
    exact hready
  · intro hready
    rw [Handle.readable_eq_some.mpr ⟨rfl, hready⟩]
    rfl

theorem readable_absorb {h : Handle} (events : List Observed) (hreadable : (h.readable stream).isSome = true) :
    ((h.absorb events).readable stream).isSome = true := by
  rw [isSome_readable] at hreadable ⊢
  rw [Handle.slotOf_absorb]
  exact ready_seeAll events hreadable

theorem absorb_takeOpened (h : Handle) (bidi : Bool) (events : List Observed) :
    h.absorb (events.eraseP fun event => (State.openedAs bidi event).isSome) = h.absorb events := by
  induction events generalizing h with
  | nil => rfl
  | cons event events ih =>
    rw [List.eraseP_cons]
    cases hopened : (State.openedAs bidi event).isSome with
    | true =>
      cases event
      case locallyOpened => rfl
      all_goals cases hopened
    | false =>
      show h.absorb (event :: events.eraseP _) = _
      rw [Handle.absorb, Handle.absorb, List.foldl_cons, List.foldl_cons]
      exact ih _

end Slots

/-- From one state to the other, no event happens unless those who wait for it are owed a wake, and who heeds an
event goes on to. -/
structure Moves (s s' : State δ) : Prop where
  polling : s'.polling = s.polling
  heeds : ∀ {waiters : Waiters} {waker : Waker} {p : Prop}, s.wakers.Heeds waiters waker p → s'.wakers.Heeds waiters waker p
  events : ∀ event : Event, event.Happened s' → event.Happened s ∨ event.waiters ∈ s'.wakers.owed

theorem moves_of_events (hpolling : s'.polling = s.polling) (hwakers : s'.wakers = s.wakers)
    (h : ∀ event : Event, event.Happened s' → event.Happened s) : Moves s s' where
  polling := hpolling
  heeds hheeds := hwakers ▸ hheeds
  events event hevent := .inl (h event hevent)

theorem happened_elsewhere {event : Event} (hshareds : ∀ d, event.waiters = .connection d → s'.shareds d = s.shareds d)
    (hhandles : ∀ d, event.waiters = .connection d → s'.handles d = s.handles d) (hendpoint : s'.endpoint = s.endpoint)
    (hestablished : ∀ d, (s'.shareds d).established = (s.shareds d).established) (hready : s'.ready = s.ready)
    (h : event.Happened s') : event.Happened s := by
  cases event with
  | established c =>
    rw [Event.Happened, hshareds c rfl] at h
    exact h
  | closed c =>
    rw [Event.Happened, hshareds c rfl] at h
    exact h
  | opened c bidi =>
    rw [Event.Happened, hshareds c rfl] at h
    exact h
  | news c =>
    rw [Event.Happened, hshareds c rfl] at h
    exact h
  | readable c stream =>
    rw [Event.Happened, hshareds c rfl, hhandles c rfl] at h
    exact h
  | pending c =>
    rw [Event.Happened, hshareds c rfl, hhandles c rfl] at h
    exact h
  | accepted =>
    rw [Event.Happened, hendpoint] at h
    obtain ⟨d, hd, hdone⟩ := h
    exact ⟨d, hd, (hestablished d).symm.trans hdone⟩
  | gone =>
    rw [Event.Happened, hendpoint] at h
    exact h
  | detached key =>
    rw [Event.Happened, hready] at h
    exact h

/-- Nothing happens but to one connection, and its handle. -/
structure Only (c : ℕ) (s s' : State δ) : Prop where
  polling : s'.polling = s.polling
  shareds : ∀ d, d ≠ c → s'.shareds d = s.shareds d
  handles : ∀ d, d ≠ c → s'.handles d = s.handles d
  endpoint : s'.endpoint = s.endpoint
  ready : s'.ready = s.ready

theorem Only.moves_owed (h : Only c s s') (hestablished : (s'.shareds c).established = (s.shareds c).established)
    (hwakers : s'.wakers = s.wakers.owe (.connection c)) : Moves s s' where
  polling := h.polling
  heeds hheeds := hwakers ▸ hheeds.owe _
  events event hevent := by
    by_cases hc : event.waiters = .connection c
    · refine .inr ?_
      rw [hwakers, hc]
      exact List.mem_cons_self
    have hne : ∀ d, event.waiters = .connection d → d ≠ c := by
      rintro d hd rfl
      exact hc hd
    refine .inl (happened_elsewhere (fun d hd => h.shareds d (hne d hd)) (fun d hd => h.handles d (hne d hd)) h.endpoint
      (fun d => ?_) h.ready hevent)
    by_cases hd : d = c
    · rw [hd, hestablished]
    · rw [h.shareds d hd]

theorem Only.moves (h : Only c s s') (hwakers : s'.wakers = s.wakers)
    (hestablished : (s'.shareds c).established = (s.shareds c).established) (hclosed : (s'.shareds c).closed = (s.shareds c).closed)
    (hobserved : (s'.shareds c).observed ⊆ (s.shareds c).observed)
    (hreadable : ∀ stream, (((s'.handles c).absorb (s'.shareds c).observed).readable stream).isSome = true →
      (((s.handles c).absorb (s.shareds c).observed).readable stream).isSome = true)
    (hpending : ((s'.handles c).absorb (s'.shareds c).observed).pendingStreams ≠ [] →
      ((s.handles c).absorb (s.shareds c).observed).pendingStreams ≠ []) : Moves s s' := by
  refine moves_of_events h.polling hwakers fun event hevent => ?_
  by_cases hc : event.waiters = .connection c
  · cases event
    case established => cases hc; exact hestablished.symm.trans hevent
    case closed => cases hc; exact hclosed.symm.trans hevent
    case opened d bidi =>
      cases hc
      obtain ⟨event, hmem, hopened⟩ := hevent
      exact ⟨event, hobserved hmem, hopened⟩
    case news => cases hc; exact fun hnil => hevent (List.subset_nil.mp (hnil ▸ hobserved))
    case readable d stream => cases hc; exact hreadable stream hevent
    case pending => cases hc; exact hpending hevent
    all_goals cases hc
  have hne : ∀ d, event.waiters = .connection d → d ≠ c := by
    rintro d hd rfl
    exact hc hd
  refine happened_elsewhere (fun d hd => h.shareds d (hne d hd)) (fun d hd => h.handles d (hne d hd)) h.endpoint
    (fun d => ?_) h.ready hevent
  by_cases hd : d = c
  · rw [hd, hestablished]
  · rw [h.shareds d hd]

theorem moves_refl (s : State δ) : Moves s s := moves_of_events rfl rfl fun _ h => h

theorem only_modifyShared (s : State δ) (c : ℕ) (f : ConnectionShared → ConnectionShared) : Only c s (s.modifyShared c f) :=
  ⟨rfl, fun _ hd => Function.update_of_ne hd _ _, fun _ _ => rfl, rfl, rfl⟩

theorem only_modifyHandle (s : State δ) (c : ℕ) (f : Handle → Handle) : Only c s (s.modifyHandle c f) :=
  ⟨rfl, fun _ _ => rfl, fun _ hd => Function.update_of_ne hd _ _, rfl, rfl⟩

theorem shareds_modifyShared (s : State δ) (c : ℕ) (f : ConnectionShared → ConnectionShared) :
    (s.modifyShared c f).shareds c = f (s.shareds c) := Function.update_self ..

theorem handles_modifyHandle (s : State δ) (c : ℕ) (f : Handle → Handle) :
    (s.modifyHandle c f).handles c = f (s.handles c) := Function.update_self ..

theorem moves_modifyShared (s : State δ) (c : ℕ) {f : ConnectionShared → ConnectionShared}
    (hestablished : (f (s.shareds c)).established = (s.shareds c).established)
    (hclosed : (f (s.shareds c)).closed = (s.shareds c).closed) (hobserved : (f (s.shareds c)).observed = (s.shareds c).observed) :
    Moves s (s.modifyShared c f) := by
  have hshared := shareds_modifyShared s c f
  refine (only_modifyShared s c f).moves rfl ?_ ?_ ?_ (fun stream h => ?_) fun h => ?_
  · rw [hshared, hestablished]
  · rw [hshared, hclosed]
  · rw [hshared, hobserved]
    exact List.Subset.refl _
  · rw [hshared, hobserved] at h
    exact h
  · rw [hshared, hobserved] at h
    exact h

theorem moves_absorb (s : State δ) (c : ℕ) : Moves s (s.absorb c) := by
  have hshared : (s.absorb c).shareds c = { s.shareds c with observed := [] } := Function.update_self ..
  have hhandle : (s.absorb c).handles c = (s.handles c).absorb (s.shareds c).observed := Function.update_self ..
  have honly : Only c s (s.absorb c) :=
    ⟨rfl, fun _ hd => Function.update_of_ne hd _ _, fun _ hd => Function.update_of_ne hd _ _, rfl, rfl⟩
  refine honly.moves rfl ?_ ?_ ?_ (fun stream h => ?_) fun h => ?_
  · rw [hshared]
  · rw [hshared]
  · rw [hshared]
    exact List.nil_subset _
  · rw [hshared, hhandle] at h
    exact h
  · rw [hshared, hhandle] at h
    exact h

theorem moves_takeOpened (s : State δ) (c : ℕ) (bidi : Bool) : Moves s (s.takeOpened c bidi).2 := by
  have hshared : (s.takeOpened c bidi).2.shareds c = { s.shareds c with
      observed := (s.shareds c).observed.eraseP fun event => (State.openedAs bidi event).isSome } := Function.update_self ..
  have honly : Only c s (s.takeOpened c bidi).2 := ⟨rfl, fun _ hd => Function.update_of_ne hd _ _, fun _ _ => rfl, rfl, rfl⟩
  have hhandle : (s.takeOpened c bidi).2.handles c = s.handles c := rfl
  refine honly.moves rfl ?_ ?_ ?_ (fun stream h => ?_) fun h => ?_
  · rw [hshared]
  · rw [hshared]
  · rw [hshared]
    exact List.eraseP_subset
  · rw [hshared, hhandle, absorb_takeOpened] at h
    exact h
  · rw [hshared, hhandle, absorb_takeOpened] at h
    exact h

theorem moves_takePending (s : State δ) (c : ℕ) :
    Moves s (s.modifyHandle c fun handle => { handle with pendingStreams := handle.pendingStreams.tail }) := by
  have hhandle := handles_modifyHandle s c fun handle => { handle with pendingStreams := handle.pendingStreams.tail }
  refine (only_modifyHandle s c _).moves rfl rfl rfl (List.Subset.refl _) (fun stream h => ?_) fun h => ?_
  · rw [isSome_readable, Handle.slotOf_absorb, hhandle] at h
    rw [isSome_readable, Handle.slotOf_absorb]
    exact h
  · rw [Handle.pendingStreams_absorb, hhandle] at h
    rw [Handle.pendingStreams_absorb]
    intro hnil
    obtain ⟨hpending, hopened⟩ := List.append_eq_nil_iff.mp hnil
    exact h (by simpa [hpending, State.modifyHandle] using hopened)

theorem takeReady_spec (shareds : ℕ → ConnectionShared) (n : ℕ) (first rest : List ℕ) (hn : n = first.length)
    (hrest : ∀ c ∈ rest, (shareds c).established = false) :
    (∀ c ∈ (World.takeReady shareds n (first ++ rest)).2, c ∈ first ++ rest) ∧
      ((World.takeReady shareds n (first ++ rest)).1 = none →
        ∀ c ∈ (World.takeReady shareds n (first ++ rest)).2, (shareds c).established = false) := by
  induction first generalizing n rest with
  | nil =>
    subst hn
    exact ⟨fun c hc => hc, fun _ => hrest⟩
  | cons candidate first ih =>
    subst hn
    simp only [List.length_cons, List.cons_append, World.takeReady]
    split
    · exact ⟨fun c hc => List.mem_cons_of_mem _ hc, nofun⟩
    rename_i hwaiting
    split
    · obtain ⟨hsubset, hnone⟩ := ih first.length rest rfl hrest
      exact ⟨fun c hc => List.mem_cons_of_mem _ (hsubset c hc), hnone⟩
    · rw [List.append_assoc]
      have hrest' : ∀ c ∈ rest ++ [candidate], (shareds c).established = false := by
        intro c hc
        rcases List.mem_append.mp hc with hc | hc
        · exact hrest c hc
        · rw [List.mem_singleton.mp hc]
          simpa using hwaiting
      obtain ⟨hsubset, hnone⟩ := ih first.length (rest ++ [candidate]) rfl hrest'
      refine ⟨fun c hc => ?_, hnone⟩
      rcases List.mem_append.mp (hsubset c hc) with hc | hc
      · exact List.mem_cons_of_mem _ (List.mem_append_left _ hc)
      · rcases List.mem_append.mp hc with hc | hc
        · exact List.mem_cons_of_mem _ (List.mem_append_right _ hc)
        · rw [List.mem_singleton.mp hc]
          exact List.mem_cons_self

theorem accepted_takeReady (s : State δ) : (∀ c ∈ s.takeReady.2.endpoint.accepted, c ∈ s.endpoint.accepted) ∧
    (s.takeReady.1 = none → ∀ c ∈ s.takeReady.2.endpoint.accepted, (s.shareds c).established = false) := by
  have hspec := takeReady_spec s.shareds s.endpoint.accepted.length s.endpoint.accepted [] rfl nofun
  rw [List.append_nil] at hspec
  exact hspec

theorem moves_takeReady (s : State δ) : Moves s s.takeReady.2 := by
  refine moves_of_events rfl rfl fun event h => ?_
  cases event
  case accepted =>
    obtain ⟨c, hc, hestablished⟩ := h
    exact ⟨c, (accepted_takeReady s).1 c hc, hestablished⟩
  all_goals exact h

theorem moves_takeDetached (s : State δ) (key : Option ℕ) : Moves s (s.takeDetached key).2 := by
  refine moves_of_events rfl rfl fun event h => ?_
  cases event
  case detached =>
    obtain ⟨entry, hentry, hkey⟩ := h
    exact ⟨entry, List.mem_of_mem_eraseP hentry, hkey⟩
  all_goals exact h

theorem moves_onWakers (s : State δ) {f : WakerLists Waiters Waker → WakerLists Waiters Waker}
    (hf : ∀ {waiters : Waiters} {waker : Waker} {p : Prop}, s.wakers.Heeds waiters waker p →
      (f s.wakers).Heeds waiters waker p) : Moves s (s.onWakers f) where
  polling := rfl
  heeds := hf
  events _ h := .inl h

theorem moves_markEstablished (s : State δ) (c : ℕ) : Moves s (s.act (.markEstablished c)) := by
  have hframe : ∀ d, d ≠ c → (s.modifyShared c ({ · with established := true })).shareds d = s.shareds d :=
    fun d hd => Function.update_of_ne hd _ _
  have hevents : ∀ event : Event, event.Happened (s.modifyShared c ({ · with established := true })) →
      event.Happened s ∨ event.waiters = .connection c ∨ event = .accepted ∧ c ∈ s.endpoint.accepted := by
    intro event h
    by_cases hc : event.waiters = .connection c
    · exact .inr (.inl hc)
    cases event with
    | accepted =>
      obtain ⟨d, hd, hestablished⟩ := h
      by_cases hdc : d = c
      · exact .inr (.inr ⟨rfl, hdc ▸ hd⟩)
      · rw [hframe d hdc] at hestablished
        exact .inl ⟨d, hd, hestablished⟩
    | gone => exact .inl h
    | detached key => exact .inl h
    | _ d =>
      have hd : d ≠ c := by
        rintro rfl
        exact hc rfl
      rw [Event.Happened, hframe d hd] at h
      exact .inl h
  rw [State.act]
  split
  · refine ⟨rfl, fun hheeds => (hheeds.owe _).owe _, fun event h => ?_⟩
    rcases hevents event h with h | hc | ⟨rfl, -⟩
    · exact .inl h
    · exact .inr (hc ▸ List.mem_cons_of_mem _ List.mem_cons_self)
    · exact .inr List.mem_cons_self
  · rename_i hnot
    refine ⟨rfl, fun hheeds => hheeds.owe _, fun event h => ?_⟩
    rcases hevents event h with h | hc | ⟨-, hmem⟩
    · exact .inl h
    · exact .inr (hc ▸ List.mem_cons_self)
    · exact (hnot hmem).elim

theorem moves_act (s : State δ) (action : Action δ) : Moves s (s.act action) := by
  cases action with
  | observe c event =>
    rw [State.act]
    split
    · have hshared : (s.record c event).shareds c = (s.shareds c).observe event := Function.update_self ..
      have honly : Only c s ((s.record c event).onWakers (·.owe (.connection c))) :=
        ⟨rfl, fun _ hd => Function.update_of_ne hd _ _, fun _ _ => rfl, rfl, rfl⟩
      exact honly.moves_owed (congrArg ConnectionShared.established hshared :) rfl
    · exact moves_refl s
  | takeObserved c =>
    rw [State.act]
    split
    · have honly := only_modifyShared s c ({ · with observed := [] })
      have hshared := shareds_modifyShared s c ({ · with observed := [] })
      have hmoves : Moves s (s.modifyShared c ({ · with observed := [] })) := by
        refine honly.moves rfl ?_ ?_ ?_ (fun stream h => ?_) fun h => ?_
        · rw [hshared]
        · rw [hshared]
        · rw [hshared]
          exact List.nil_subset _
        · rw [hshared] at h
          exact readable_absorb _ h
        · rw [hshared] at h
          rw [Handle.pendingStreams_absorb]
          exact List.append_ne_nil_of_left_ne_nil h _
      exact ⟨rfl, hmoves.heeds, hmoves.events⟩
    · exact moves_refl s
  | putBack c =>
    have honly : Only c s (s.act (.putBack c)) := ⟨rfl, fun _ hd => Function.update_of_ne hd _ _, fun _ _ => rfl, rfl, rfl⟩
    have hshared : (s.act (.putBack c)).shareds c =
        { s.shareds c with observed := (s.shareds c).observed ++ s.held c } := Function.update_self ..
    exact honly.moves_owed (congrArg ConnectionShared.established hshared :) rfl
  | markEstablished c => exact moves_markEstablished s c
  | recordFailure c error =>
    rw [State.act]
    apply moves_modifyShared
    all_goals rfl
  | markClosed c =>
    rw [State.act]
    split
    · have honly : Only c s ((s.modifyShared c ({ · with closed := true })).onWakers (·.owe (.connection c))) :=
        ⟨rfl, fun _ hd => Function.update_of_ne hd _ _, fun _ _ => rfl, rfl, rfl⟩
      have hshared := shareds_modifyShared s c ({ · with closed := true })
      exact honly.moves_owed (congrArg ConnectionShared.established hshared :) rfl
    · exact moves_refl s
  | accept c =>
    refine ⟨rfl, fun hheeds => hheeds.owe _, fun event h => ?_⟩
    cases event
    case accepted => exact .inr List.mem_cons_self
    all_goals exact .inl h
  | deliver key connection =>
    refine ⟨rfl, fun hheeds => hheeds.owe _, fun event h => ?_⟩
    cases event
    case detached => exact .inr List.mem_cons_self
    all_goals exact .inl h
  | markGone =>
    refine ⟨rfl, fun hheeds => hheeds.owe _, fun event h => ?_⟩
    cases event
    case gone => exact .inr List.mem_cons_self
    all_goals exact .inl h
  | takeWakers waiters => exact moves_onWakers s (f := (·.take waiters)) fun hheeds => hheeds.take waiters
  | wakeNext => exact moves_onWakers s fun hheeds => hheeds.wakeNext
  | register waiters waker => exact moves_onWakers s (f := (·.register waiters waker)) fun hheeds => hheeds.register waiters waker
  | takeOpened c bidi => exact moves_takeOpened s c bidi
  | absorb c => exact moves_absorb s c
  | takeReady => exact moves_takeReady s
  | takeDetached key => exact moves_takeDetached s key

/-! ## What a poll finds out -/

/-- The waker of a poll, where it is registered, and the events that it heeds. -/
structure Watch where
  waker : Option Waker := none
  registered : List Waiters := []
  heeded : List Event := []

/-- The event that an answer says has not happened. -/
def refuted : {β : Type} → Op δ β → β → Option Event
  | _, .isEstablished c, false => some (.established c)
  | _, .isClosed c, false => some (.closed c)
  | _, .isGone, false => some .gone
  | _, .takeOpened c bidi, none => some (.opened c bidi)
  | _, .absorb c, _ => some (.news c)
  | _, .readable _ c stream, none => some (.readable c stream)
  | _, .takePending c, none => some (.pending c)
  | _, .takeReady, none => some .accepted
  | _, .takeDetached key, none => some (.detached key)
  | _, _, _ => none

/-- What a handle has says what has happened only as long as it has taken in everything. -/
def Event.rests : Event → List Event
  | .readable c _ | .pending c => [.news c]
  | _ => []

def Watch.note (k : Watch) (event : Event) : Watch :=
  if event.waiters ∈ k.registered ∧ ∀ other ∈ event.rests, other ∈ k.heeded then { k with heeded := event :: k.heeded } else k

def nextWatch (awaited : Awaited) : {β : Type} → Watch → Op δ β → β → Watch
  | _, _, .await waker, _ => { waker := some waker }
  | _, k, .register waiters _, _ => { k with
    registered := waiters :: k.registered
    heeded := (neglects awaited).filter (·.waiters = waiters) ++ k.heeded }
  | _, k, .takeBytes _ _, _ => { waker := k.waker }
  | _, k, op, answer =>
    match refuted op answer with
    | some event => k.note event
    | none => k

/-- A poll that has returned `Pending` heeds all that its future waits for. -/
def allowsWatch (awaited : Awaited) : {β : Type} → Watch → Op δ β → Prop
  | _, k, .await _ => k.waker = none ∨ ∀ event ∈ awaits awaited, event ∈ k.heeded
  | _, k, .register _ waker => k.waker = some waker
  | _, _, _ => True

def watching (awaited : Awaited) : Protocol (Op δ) Watch where
  next := nextWatch awaited
  allows := allowsWatch awaited
  expects _ _ := True

section Polls

attribute [local simp] awaits neglects watching nextWatch refuted Watch.note Event.waiters Event.rests

theorem follows_ended {awaited : Awaited} {α : Type} {k : Watch} {Q : Poll (Except Error α) → Watch → Prop}
    (h : ∀ error k, Q (.ready (.error error)) k) (c : ℕ) :
    Follows (watching (δ := δ) awaited) Q (fun _ _ => True) (ended c : PollM δ (Poll (Except Error α))) k :=
  ⟨True.intro, fun _ _ => h _ _⟩

/-- A poll that returns `Pending` heeds all that its future waits for. -/
def Heeding (awaited : Awaited) {α : Type} (result : Poll α) (k : Watch) : Prop :=
  result = .pending → ∀ event ∈ awaits awaited, event ∈ k.heeded

theorem heeding_ready {awaited : Awaited} {α : Type} {a : α} {k : Watch} : Heeding awaited (.ready a) k := nofun

theorem follows_connecting (c : ℕ) (waker : Waker) : Follows (watching (.connecting c)) (Heeding (.connecting c)) (fun _ _ => True)
    (pollConnecting c waker : PollM δ (Poll (Except Error ℕ))) { waker := some waker } := by
  rw [pollConnecting]
  refine ⟨True.intro, fun established _ => ?_⟩
  cases established with
  | true => exact heeding_ready
  | false =>
    refine ⟨True.intro, fun closed _ => ?_⟩
    cases closed with
    | true => exact follows_ended (fun _ _ => heeding_ready) c
    | false =>
      refine ⟨rfl, fun _ _ => ⟨True.intro, fun established _ => ?_⟩⟩
      cases established with
      | true => exact heeding_ready
      | false =>
        refine ⟨True.intro, fun closed _ => ?_⟩
        cases closed with
        | true => exact follows_ended (fun _ _ => heeding_ready) c
        | false =>
          intro _
          simp

theorem follows_openStream (c : ℕ) (bidi : Bool) (waker : Waker) :
    Follows (watching (.openStream c bidi)) (Heeding (.openStream c bidi)) (fun _ _ => True)
      (pollOpenStream c bidi waker : PollM δ (Poll (Except Error StreamId))) { waker := some waker } := by
  rw [pollOpenStream]
  refine ⟨True.intro, fun opened _ => ?_⟩
  cases opened with
  | some stream => exact heeding_ready
  | none =>
    refine ⟨True.intro, fun closed _ => ?_⟩
    cases closed with
    | true => exact follows_ended (fun _ _ => heeding_ready) c
    | false =>
      refine ⟨rfl, fun _ _ => ⟨True.intro, fun opened _ => ?_⟩⟩
      cases opened with
      | some stream => exact heeding_ready
      | none =>
        refine ⟨True.intro, fun closed _ => ?_⟩
        cases closed with
        | true => exact follows_ended (fun _ _ => heeding_ready) c
        | false =>
          intro _
          simp

theorem follows_takeChunk {awaited : Awaited} (c : ℕ) (stream : StreamId) (slot : Incoming) (k : Watch) :
    Follows (watching awaited) (Heeding awaited) (fun _ _ => True)
      (takeChunk c stream slot : PollM δ (Poll (Except Error Chunk))) k := by
  rw [takeChunk]
  refine ⟨True.intro, fun _ _ => ?_⟩
  show Follows _ _ _ (if _ then _ else _) _
  split
  · exact heeding_ready
  · exact ⟨True.intro, fun _ _ => heeding_ready⟩

theorem follows_readStream (c : ℕ) (stream : StreamId) (waker : Waker) :
    Follows (watching (.readStream c stream)) (Heeding (.readStream c stream)) (fun _ _ => True)
      (pollReadStream c stream waker : PollM δ (Poll (Except Error Chunk))) { waker := some waker } := by
  rw [pollReadStream]
  refine ⟨True.intro, fun _ _ => ⟨True.intro, fun found _ => ?_⟩⟩
  cases found with
  | some slot =>
    obtain ⟨_ | ⟨first, more⟩, fin, _ | code⟩ := slot
    · exact follows_takeChunk c stream _ _
    · exact heeding_ready
    · exact follows_takeChunk c stream _ _
    · exact follows_takeChunk c stream _ _
  | none =>
    refine ⟨True.intro, fun closed _ => ?_⟩
    cases closed with
    | true => exact follows_ended (fun _ _ => heeding_ready) c
    | false =>
      refine ⟨rfl, fun _ _ => ⟨True.intro, fun _ _ => ⟨True.intro, fun found _ => ?_⟩⟩⟩
      cases found with
      | some slot => exact follows_takeChunk c stream slot _
      | none =>
        intro _
        simp

theorem follows_acceptStream (c : ℕ) (waker : Waker) :
    Follows (watching (.acceptStream c)) (Heeding (.acceptStream c)) (fun _ _ => True)
      (pollAcceptStream c waker : PollM δ (Poll (Except Error StreamId))) { waker := some waker } := by
  rw [pollAcceptStream]
  refine ⟨True.intro, fun _ _ => ⟨True.intro, fun pending _ => ?_⟩⟩
  cases pending with
  | some stream => exact heeding_ready
  | none =>
    refine ⟨True.intro, fun closed _ => ?_⟩
    cases closed with
    | true => exact heeding_ready
    | false =>
      refine ⟨rfl, fun _ _ => ⟨True.intro, fun _ _ => ⟨True.intro, fun pending _ => ?_⟩⟩⟩
      cases pending with
      | some stream => exact heeding_ready
      | none =>
        intro _
        simp

theorem follows_accepting (waker : Waker) : Follows (watching .accepting) (Heeding .accepting) (fun _ _ => True)
    (pollAccepting waker : PollM δ (Poll (Except Error ℕ))) { waker := some waker } := by
  rw [pollAccepting]
  refine ⟨True.intro, fun found _ => ?_⟩
  cases found with
  | some c => exact heeding_ready
  | none =>
    refine ⟨True.intro, fun gone _ => ?_⟩
    cases gone with
    | true => exact heeding_ready
    | false =>
      refine ⟨rfl, fun _ _ => ⟨True.intro, fun found _ => ?_⟩⟩
      cases found with
      | some c => exact heeding_ready
      | none =>
        intro _
        simp

theorem follows_detaching (key : Option ℕ) (waker : Waker) :
    Follows (watching (.detaching key)) (Heeding (.detaching key)) (fun _ _ => True)
      (pollDetaching key waker : PollM δ (Poll (Except Error δ))) { waker := some waker } := by
  rw [pollDetaching]
  refine ⟨True.intro, fun found _ => ?_⟩
  cases found with
  | some connection => exact heeding_ready
  | none =>
    cases key with
    | none =>
      refine ⟨True.intro, fun gone _ => ?_⟩
      cases gone with
      | true => exact heeding_ready
      | false =>
        refine ⟨rfl, fun _ _ => ⟨rfl, fun _ _ => ?_⟩⟩
        intro _
        simp
    | some c =>
      refine ⟨True.intro, fun closed _ => ?_⟩
      cases closed with
      | true => exact ⟨True.intro, fun _ _ => heeding_ready⟩
      | false =>
        refine ⟨True.intro, fun gone _ => ?_⟩
        cases gone with
        | true => exact heeding_ready
        | false =>
          refine ⟨rfl, fun _ _ => ⟨rfl, fun _ _ => ⟨rfl, fun _ _ => ?_⟩⟩⟩
          intro _
          simp

theorem follows_poll (awaited : Awaited) (waker : Waker) : Follows (watching awaited) (Heeding awaited) (fun _ _ => True)
    (awaited.poll waker : PollM δ (Poll (Except Error (awaited.Output δ)))) { waker := some waker } := by
  cases awaited with
  | connecting c => exact follows_connecting c waker
  | openStream c bidi => exact follows_openStream c bidi waker
  | readStream c stream => exact follows_readStream c stream waker
  | acceptStream c => exact follows_acceptStream c waker
  | accepting => exact follows_accepting waker
  | detaching key => exact follows_detaching key waker

theorem follows_task (awaited : Awaited) (wakers : List Waker) {k : Watch}
    (hk : k.waker = none ∨ ∀ event ∈ awaits awaited, event ∈ k.heeded) :
    Follows (watching awaited) (fun _ _ => True) (fun _ _ => True) (awaited.task wakers : PollM δ (awaited.Output δ)) k := by
  induction wakers generalizing k with
  | nil => exact True.intro
  | cons waker wakers ih =>
    rw [Awaited.task]
    refine follows_bind.mpr ⟨hk, fun _ _ => follows_bind.mpr ?_⟩
    refine Follows.mono (follows_poll awaited waker) (fun result k hk => ?_) fun _ _ h => h
    rcases result with _ | _ | output
    · exact ih (.inr (hk rfl))
    · exact True.intro
    · exact True.intro

end Polls

/-! ## Runs -/

/-- What is known of the events that are heeded. -/
structure Watched (s : State δ) (k : Watch) : Prop where
  polling : s.polling = k.waker
  registered : ∀ waiters ∈ k.registered, ∀ waker ∈ k.waker, s.wakers.Heeds waiters waker False
  heeded : ∀ event ∈ k.heeded, ∀ waker ∈ k.waker, s.wakers.Heeds event.waiters waker (event.Happened s)

variable {k : Watch} {awaited : Awaited}

theorem Watched.moves (h : Watched s k) (hmoves : Moves s s') : Watched s' k where
  polling := hmoves.polling.trans h.polling
  registered waiters hmem waker hwaker := hmoves.heeds (h.registered waiters hmem waker hwaker)
  heeded event hmem waker hwaker := by
    have hheeds := hmoves.heeds (h.heeded event hmem waker hwaker)
    exact hheeds.imp (hmoves.events event)

theorem Watched.note (h : Watched s k) {event : Event}
    (hnot : (∀ other ∈ event.rests, ¬ other.Happened s) → ¬ event.Happened s) : Watched s (k.note event) := by
  rw [Watch.note]
  split
  · rename_i hregistered
    obtain ⟨hregistered, hrests⟩ := hregistered
    refine ⟨h.polling, h.registered, fun other hmem waker hwaker => ?_⟩
    rcases List.mem_cons.mp hmem with rfl | hmem
    · cases other with
      | readable d stream =>
        have hnews := h.heeded (.news d) (hrests _ (List.mem_singleton_self _)) waker hwaker
        refine hnews.imp fun happened => .inl ?_
        by_contra hnone
        exact hnot (by simpa [Event.rests] using hnone) happened
      | pending d =>
        have hnews := h.heeded (.news d) (hrests _ (List.mem_singleton_self _)) waker hwaker
        refine hnews.imp fun happened => .inl ?_
        by_contra hnone
        exact hnot (by simpa [Event.rests] using hnone) happened
      | _ =>
        refine (h.registered _ hregistered waker hwaker).of_not (hnot ?_)
        simp [Event.rests]
    · exact h.heeded other hmem waker hwaker
  · exact h

theorem not_happened_of_refuted (op : Op δ β) {event : Event} (h : refuted op (s.applyOp op).1 = some event)
    (hrests : ∀ other ∈ event.rests, ¬ other.Happened (s.applyOp op).2) : ¬ event.Happened (s.applyOp op).2 := by
  cases op
  all_goals try (cases h; done)
  case isEstablished c =>
    simp only [State.applyOp] at h ⊢
    cases hanswer : (s.shareds c).established with
    | true => rw [hanswer] at h; cases h
    | false => rw [hanswer] at h; cases h; simp [Event.Happened, hanswer]
  case isClosed c =>
    simp only [State.applyOp] at h ⊢
    cases hanswer : (s.shareds c).closed with
    | true => rw [hanswer] at h; cases h
    | false => rw [hanswer] at h; cases h; simp [Event.Happened, hanswer]
  case isGone =>
    simp only [State.applyOp] at h ⊢
    cases hanswer : s.endpoint.gone with
    | true => rw [hanswer] at h; cases h
    | false => rw [hanswer] at h; cases h; simp [Event.Happened, hanswer]
  case takeOpened c bidi =>
    simp only [State.applyOp, State.takeOpened] at h ⊢
    cases hanswer : (s.shareds c).observed.findSome? (State.openedAs bidi) with
    | some stream => rw [hanswer] at h; cases h
    | none =>
      rw [hanswer] at h
      cases h
      rintro ⟨event, hmem, hopened⟩
      rw [List.findSome?_eq_none_iff] at hanswer
      simp only [shareds_modifyShared] at hmem
      rw [hanswer event (List.mem_of_mem_eraseP hmem)] at hopened
      cases hopened
  case absorb c =>
    cases h
    simp [Event.Happened, State.applyOp, State.absorb, State.modifyShared]
  case readable again c stream =>
    simp only [State.applyOp] at h hrests ⊢
    cases hanswer : (s.handles c).readable stream with
    | some slot => rw [hanswer] at h; cases h
    | none =>
      rw [hanswer] at h
      cases h
      have hnone : (s.shareds c).observed = [] := by
        by_contra hnews
        exact hrests _ (List.mem_singleton_self _) hnews
      simp [Event.Happened, hnone, Handle.absorb, hanswer]
  case takePending c =>
    simp only [State.applyOp] at h hrests ⊢
    cases hanswer : (s.handles c).pendingStreams.head? with
    | some stream => rw [hanswer] at h; cases h
    | none =>
      rw [hanswer] at h
      cases h
      have hnone : (s.shareds c).observed = [] := by
        by_contra hnews
        exact hrests _ (List.mem_singleton_self _) hnews
      have hnil : (s.handles c).pendingStreams = [] := List.head?_eq_none_iff.mp hanswer
      simp [Event.Happened, State.modifyHandle, hnone, Handle.absorb, hnil]
  case takeReady =>
    simp only [State.applyOp] at h ⊢
    cases hanswer : s.takeReady.1 with
    | some c => rw [hanswer] at h; cases h
    | none =>
      rw [hanswer] at h
      cases h
      rintro ⟨c, hmem, hestablished⟩
      have hwaiting := (accepted_takeReady s).2 hanswer c hmem
      exact absurd (hwaiting.symm.trans hestablished) (by simp)
  case takeDetached key =>
    simp only [State.applyOp, State.takeDetached] at h ⊢
    cases hanswer : s.ready.find? (·.1 = key) with
    | some entry => rw [hanswer] at h; cases h
    | none =>
      rw [hanswer] at h
      cases h
      rintro ⟨entry, hmem, hkey⟩
      rw [List.find?_eq_none] at hanswer
      exact hanswer entry (List.mem_of_mem_eraseP hmem) (by simpa using hkey)

def registering : Op δ β → Option Waiters
  | .register waiters _ => some waiters
  | _ => none

/-- A future does not register for what it does not look at again once that has happened, unless those who wait
for it are still owed the wake. -/
def RegistersInTime (awaited : Awaited) {β : Type} (op : Op δ β) (s : State δ) : Prop :=
  ∀ waiters ∈ registering op, ∀ event ∈ neglects awaited, event.waiters = waiters → event.Happened s → waiters ∈ s.wakers.owed

instance (awaited : Awaited) {β : Type} (op : Op δ β) (s : State δ) : Decidable (RegistersInTime awaited op s) :=
  inferInstanceAs (Decidable (∀ waiters ∈ registering op, ∀ event ∈ neglects awaited, _))

/-- A future that has returned `Pending`, and that no wake is on its way to, waits for what has not happened. -/
def SleepsRightly (awaited : Awaited) {β : Type} (op : Op δ β) (s : State δ) : Prop :=
  match op with
  | .await _ => ∀ waker ∈ s.polling, ∀ event ∈ awaits awaited, s.wakers.Asleep event.waiters waker → ¬ event.Happened s
  | _ => True

instance (awaited : Awaited) {β : Type} (op : Op δ β) (s : State δ) : Decidable (SleepsRightly awaited op s) :=
  match op with
  | .await _ => inferInstanceAs (Decidable (∀ waker ∈ s.polling, ∀ event ∈ awaits awaited, _ → _))
  | .isEstablished _ | .isClosed _ | .failure _ | .isGone | .register _ _ | .takeOpened _ _ | .absorb _ | .readable _ _ _
  | .takeBytes _ _ | .push _ _ | .takePending _ | .takeReady | .takeDetached _ | .polled _ _ => .isTrue True.intro

theorem Watched.register (h : Watched s k) (hwaker : k.waker = some waker) {waiters : Waiters}
    (hgood : ∀ event ∈ neglects awaited, event.waiters = waiters → event.Happened s → waiters ∈ s.wakers.owed) :
    Watched (s.onWakers (·.register waiters waker)) (nextWatch awaited k (.register waiters waker : Op δ Unit) ()) := by
  have hmoves : Moves s (s.onWakers (·.register waiters waker)) :=
    moves_onWakers s (f := (·.register waiters waker)) fun hheeds => hheeds.register waiters waker
  have hkept := h.moves hmoves
  refine ⟨hkept.polling, fun other hmem waker' hwaker' => ?_, fun event hmem waker' hwaker' => ?_⟩
  · obtain rfl : waker' = waker := Option.some.inj (Eq.trans (Eq.symm hwaker') hwaker)
    rcases List.mem_cons.mp hmem with rfl | hmem
    · exact s.wakers.heeds_register waker' False.elim
    · exact hkept.registered other hmem waker' hwaker'
  · obtain rfl : waker' = waker := Option.some.inj (Eq.trans (Eq.symm hwaker') hwaker)
    rcases List.mem_append.mp hmem with hmem | hmem
    · obtain ⟨hneglected, hwaiters⟩ := List.mem_filter.mp hmem
      obtain rfl : event.waiters = waiters := by simpa using hwaiters
      exact s.wakers.heeds_register waker' (hgood event hneglected rfl)
    · exact hkept.heeded event hmem waker' hwaker'

theorem watched_applyOp (op : Op δ β) (h : Watched s k) (hgood : RegistersInTime awaited op s) (hallowed : allowsWatch awaited k op) :
    Watched (s.applyOp op).2 (nextWatch awaited k op (s.applyOp op).1) := by
  have hnoted : Moves s (s.applyOp op).2 → Watched (s.applyOp op).2 (match refuted op (s.applyOp op).1 with
      | some event => k.note event
      | none => k) := by
    intro hmoves
    split
    · rename_i event hevent
      exact (h.moves hmoves).note (not_happened_of_refuted op hevent)
    · exact h.moves hmoves
  cases op with
  | await waker => exact ⟨rfl, nofun, nofun⟩
  | register waiters waker => exact h.register hallowed (hgood waiters rfl)
  | takeBytes c stream => exact ⟨h.polling, nofun, nofun⟩
  | isEstablished c => exact hnoted (moves_refl s)
  | isClosed c => exact hnoted (moves_refl s)
  | failure c => exact hnoted (moves_refl s)
  | isGone => exact hnoted (moves_refl s)
  | takeOpened c bidi => exact hnoted (moves_takeOpened s c bidi)
  | absorb c => exact hnoted (moves_absorb s c)
  | readable again c stream => exact hnoted (moves_refl s)
  | push c command => exact hnoted (moves_modifyShared s c (f := (·.push command)) rfl rfl rfl)
  | takePending c => exact hnoted (moves_takePending s c)
  | takeReady => exact hnoted (moves_takeReady s)
  | takeDetached key => exact hnoted (moves_takeDetached s key)
  | polled stream result =>
    rcases result with _ | _ | chunk
    · exact hnoted (moves_refl s)
    · exact hnoted (moves_refl s)
    · exact hnoted (moves_of_events rfl rfl fun _ happened => happened)

theorem sleepsRightly_of_watched {op : Op δ β} (h : Watched s k) (hallowed : allowsWatch awaited k op) : SleepsRightly awaited op s := by
  cases op
  case await waker' =>
    intro waker hwaker event hevent hasleep
    rw [h.polling] at hwaker
    rcases hallowed with hnone | hheeded
    · rw [hnone] at hwaker
      cases hwaker
    · exact (h.heeded event (hheeded event hevent) waker hwaker).not_of_asleep hasleep
  all_goals exact True.intro

/-- A future that registers in time for what it does not look at again never sleeps through what it waits for. -/
theorem sleepsRightly_reached (awaited : Awaited) (wakers : List Waker) (hpolling : s.polling = none)
    {choices : List (Choice (Action δ))}
    (h : (system (awaited.task wakers)).Careful s (RegistersInTime awaited) (fun _ _ => True) choices) :
    ((system (awaited.task wakers)).reached s choices).Next (SleepsRightly awaited) := by
  have hconduct : Conduct (system (awaited.task wakers : PollM δ _)) (watching awaited) (fun _ => True) fun _ => True :=
    ⟨fun _ _ => True.intro, fun _ _ _ _ => True.intro⟩
  have hadheres : Adheres (watching awaited) Watched (fun _ => True) (fun _ => True) (fun _ _ => True) _ :=
    adheres_of_follows (k := {}) hconduct
      (fun op s k hwatched hgood hallowed => ⟨True.intro, watched_applyOp op hwatched hgood hallowed⟩)
      (fun action s k hwatched _ => hwatched.moves (moves_act s action)) ⟨hpolling, nofun, nofun⟩
      (Follows.mono (follows_task awaited wakers (.inl rfl)) (fun _ _ h => h) fun _ _ h => ⟨h, h⟩) h
  refine hadheres.next.mono fun op s hnext => ?_
  obtain ⟨k, hwatched, hallowed⟩ := hnext
  exact sleepsRightly_of_watched hwatched hallowed

/-! ## A connection that ends while it is read -/

def lost : Error := ⟨.idleTimeout, "the connection was closed", none, none⟩

def aStream : StreamId := ⟨0, zero_le_maxVarint⟩

/-- A poll of a `ReadStream`, with the end of its connection behind its first steps. -/
def interrupted (steps : ℕ) : List (Choice (Action Unit)) :=
  List.replicate steps .own ++ [.other (.recordFailure 0 lost), .other (.markClosed 0),
    .other (.takeWakers (.connection 0)), .other .wakeNext] ++ List.replicate (7 - steps) .own

def reading : System (Op Unit) Error Chunk (State Unit) (Action Unit) :=
  system (Awaited.task (.readStream 0 aStream) [0, 0])

/-- A reader that has looked whether the connection has ended, and has not registered yet, is never woken. -/
theorem interrupted_sleeps : ¬ (reading.reached {} (interrupted 4)).Next (SleepsRightly (.readStream 0 aStream)) := by
  decide +kernel

/-- One that has registered is. -/
theorem sleepsRightly_reached_registered : (reading.reached {} (interrupted 5)).Next (SleepsRightly (.readStream 0 aStream)) := by
  refine sleepsRightly_reached (.readStream 0 aStream) [0, 0] rfl ?_
  apply careful_of_carefulFrom
  decide +kernel

end Ngnet.QuicHandleWakes
