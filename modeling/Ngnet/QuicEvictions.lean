import Ngnet.QuicConnectionTable
import Ngnet.QuicEndpointProtocols
import Ngnet.QuicScriptedHost

/-!
# What `evict` removes

`evict` removes a connection that has ended, once it has nothing left to send; it sees that it has ended by
its mark, or because it is draining. A connection that was told of its end and that `evict` does not see the
end of stays where it is. Where no operation does that to a connection, no connection that has ended outlives
the pass in which it has sent what it had to send.
-/

namespace Ngnet.QuicEvictions
open QmuxVarints InterleavedPrograms QuicEndpoint QuicEndpointDriver QuicEndpointSteps QuicConnectionTable
open QuicEndpointProtocols QuicScriptedHost

variable {κ σ π : Type} {w w' : World κ σ π} {i j c d : ℕ} {tracked tracked' : Tracked κ}

/-! ## Ends that `evict` sees -/

/-- A connection that is draining goes on to drain, whatever it is asked. -/
def StaysDraining (κ : Type) [Transport κ] : Prop := ∀ {α : Type} (call : ConnCall α) (conn : κ),
  Transport.inDrainingPeriod conn = true → Transport.inDrainingPeriod (Transport.call call conn).2.2 = true

/-- A connection that was told that it has ended is one that `evict` sees the end of, and none was told so that
is still to be dialled. -/
structure Marked [Transport κ] (s : Core κ) : Prop where
  tracked : ∀ i tracked, s.tracked i = some tracked → tracked.conn.isSome = true →
    (s.shareds tracked.shared).closed = true → isOver tracked = true
  asked : ∀ c ∈ s.asked, (s.shareds c).closed = false

section Marked
variable {s s' : Core κ} {f : ConnectionShared → ConnectionShared}

theorem shareds_of_ne (h : d ≠ c) : (s.modifyShared c f).shareds d = s.shareds d := by
  simp [Core.modifyShared, h]

theorem closed_of_eq (h : (f (s.shareds c)).closed = (s.shareds c).closed) (d : ℕ) :
    ((s.modifyShared c f).shareds d).closed = (s.shareds d).closed := by
  by_cases hd : d = c
  · subst hd
    simpa [Core.modifyShared] using h
  · rw [shareds_of_ne hd]

theorem closed_notes (notes : List Note) (shared : ConnectionShared) :
    (notes.foldl .note shared).closed = shared.closed :=
  (handled_notes True shared notes).closed

variable [Transport κ]

theorem Marked.of_eq (h : Marked s) (htracked : s'.tracked = s.tracked) (hasked : s'.asked ⊆ s.asked)
    (hclosed : ∀ c, (s'.shareds c).closed = (s.shareds c).closed) : Marked s' where
  tracked i tracked hi hconn hended := by
    rw [htracked] at hi
    rw [hclosed] at hended
    exact h.tracked i tracked hi hconn hended
  asked c hc := by
    rw [hclosed]
    exact h.asked c (hasked hc)

theorem Marked.setTracked (h : Marked s) {entry : Option (Tracked κ)} (hentry : ∀ tracked, entry = some tracked →
    tracked.conn.isSome = true → (s.shareds tracked.shared).closed = true → isOver tracked = true) :
    Marked (s.setTracked i entry) where
  tracked j tracked hj hconn hended := by
    rcases tracked_setTracked hj with ⟨rfl, heq⟩ | ⟨-, hj⟩
    · exact hentry tracked heq hconn hended
    · exact h.tracked j tracked hj hconn hended
  asked := h.asked

theorem Marked.fail (h : Marked s) (hasked : c ∉ s.asked) (error : Error) (htracked : ∀ i tracked,
    s.tracked i = some tracked → tracked.conn.isSome = true → tracked.shared = c → isOver tracked = true) :
    Marked (s.modifyShared c (·.fail error)) where
  tracked i tracked hi hconn hended := by
    by_cases hc : tracked.shared = c
    · exact htracked i tracked hi hconn hc
    · rw [shareds_of_ne hc] at hended
      exact h.tracked i tracked hi hconn hended
  asked d hd := by
    have hne : d ≠ c := fun heq => hasked (heq ▸ hd)
    rw [shareds_of_ne hne]
    exact h.asked d hd

theorem Marked.ask (h : Marked s) (hsound : Sound s) {shared : ConnectionShared} : Marked (s.ask shared) where
  tracked i tracked hi hconn hended := by
    have hne : tracked.shared ≠ s.created := (hsound.tracked i tracked hi).2.1.ne
    simp only [Core.ask, Function.update_of_ne hne] at hended
    exact h.tracked i tracked hi hconn hended
  asked c hc := by
    have hne : c ≠ s.created := (hsound.below c hc).ne
    simpa [Core.ask, Function.update_of_ne hne] using h.asked c hc

theorem Marked.install (h : Marked s) (hopen : (s.shareds c).closed = false) (conn : κ) (remote : Address) :
    Marked (s.install conn c remote) := by
  have hset : Marked (s.setTracked s.nextIndex (some { conn := some conn, shared := c, remote })) := by
    refine h.setTracked fun tracked heq _ hended => ?_
    cases heq
    rw [hopen] at hended
    cases hended
  exact ⟨hset.tracked, hset.asked⟩

theorem Marked.step (hdraining : StaysDraining κ) (hsound : Sound s) (h : Marked s)
    (hstep : Step { silent := fun _ => False } s s') : Marked s' := by
  cases hstep with
  | share c hf => exact h.of_eq rfl (List.Subset.refl _) (closed_of_eq hf.closed)
  | @call i tracked conn htracked hconn _ call =>
    have hset : Marked (s.setTracked i (some { tracked with conn := some (Transport.call call conn).2.2 })) := by
      refine h.setTracked fun tracked' heq _ hended => ?_
      cases heq
      have hover := h.tracked i tracked htracked (by simp [hconn]) hended
      simp only [isOver, hconn, Option.any_some, Bool.or_eq_true] at hover ⊢
      exact hover.imp_right (hdraining call conn)
    have hcalled : Marked ((s.setTracked i (some { tracked with conn := some (Transport.call call conn).2.2 })).modifyShared
        tracked.shared fun shared => (Transport.call call conn).2.1.foldl .note shared) := by
      refine hset.of_eq rfl (List.Subset.refl _) fun d => closed_of_eq ?_ d
      exact closed_notes _ _
    exact ⟨hcalled.tracked, hcalled.asked⟩
  | @pend i tracked htracked pending =>
    refine h.setTracked fun tracked' heq hconn hended => ?_
    cases heq
    exact h.tracked i tracked htracked hconn hended
  | @finish i tracked htracked error =>
    have hset : Marked (s.setTracked i (some { tracked with finished := true })) := by
      refine h.setTracked fun tracked' heq _ _ => ?_
      cases heq
      rfl
    refine hset.fail (hsound.tracked i tracked htracked).2.2 error fun j tracked' hj _ hshared => ?_
    rcases tracked_setTracked hj with ⟨rfl, heq⟩ | ⟨hne, hj⟩
    · cases heq
      rfl
    · exact (hne (hsound.once j i tracked' tracked hj htracked hshared)).elim
  | @fail i tracked htracked hover error =>
    refine h.fail (hsound.tracked i tracked htracked).2.2 error fun j tracked' hj _ hshared => ?_
    cases hsound.once j i tracked' tracked hj htracked hshared
    rw [htracked] at hj
    cases hj
    exact hover
  | failSilently hsilent error => exact hsilent.elim
  | establish htracked => exact h.of_eq rfl (List.Subset.refl _) (closed_of_eq rfl)
  | @handOver i tracked conn htracked hconn hdetach hestablished hmay =>
    have hset : Marked (s.setTracked i (some { tracked with conn := none })) := by
      refine h.setTracked fun tracked' heq hconn _ => ?_
      cases heq
      cases hconn
    exact ⟨hset.tracked, hset.asked⟩
  | ask hfresh => exact h.ask hsound
  | @dial c dialing hdialing conn remote hmay =>
    have hmem : c ∈ s.asked := by simp [Core.asked, hdialing]
    have hsub : ({ s with dialing } : Core κ).asked ⊆ s.asked := by
      intro d hd
      simp only [Core.asked, hdialing, List.cons_append, List.mem_cons] at hd ⊢
      exact .inr hd
    have htaken : Marked ({ s with dialing } : Core κ) := h.of_eq rfl hsub fun _ => rfl
    exact htaken.install (h.asked c hmem) conn remote
  | @undial c dialing hdialing error =>
    have hcons : c :: (dialing ++ s.dials ++ s.connecting) = s.asked := by simp [Core.asked, hdialing]
    have hnodup := hsound.nodup
    rw [← hcons, List.nodup_cons] at hnodup
    have hsub : ({ s with dialing } : Core κ).asked ⊆ s.asked := hcons ▸ List.subset_cons_self _ _
    have htaken : Marked ({ s with dialing } : Core κ) := h.of_eq rfl hsub fun _ => rfl
    refine htaken.fail hnodup.1 error fun i tracked hi _ heq => ?_
    exact ((hsound.tracked i tracked hi).2.2 (heq ▸ hcons ▸ List.mem_cons_self)).elim
  | @accept shared hfresh conn remote id hmay =>
    have hasked : Marked (s.ask shared) := h.ask hsound
    have hinstall := hasked.install (c := s.created) (by simp [Core.ask, hfresh.closed]) conn remote
    exact ⟨hinstall.tracked, hinstall.asked⟩
  | @applyRoutes i tracked htracked hmay =>
    have hempty : Marked (s.modifyShared tracked.shared ({ · with routes := [] })) :=
      h.of_eq rfl (List.Subset.refl _) (closed_of_eq rfl)
    exact ⟨hempty.tracked, hempty.asked⟩
  | remove i hmay =>
    have hset : Marked (s.setTracked i none) := h.setTracked (by simp)
    exact ⟨hset.tracked, hset.asked⟩
  | drain hmay => exact h.of_eq rfl (by simp [Core.asked]) fun _ => rfl
  | failDials error =>
    -- Those that were still to be dialled are told so, and are not tracked.
    have hnot : ∀ i tracked, s.tracked i = some tracked → tracked.shared ∉ s.dials := by
      intro i tracked hi hdials
      exact (hsound.tracked i tracked hi).2.2 (List.mem_append_left _ (List.mem_append_right _ hdials))
    refine ⟨fun i tracked hi hconn hended => ?_, fun c hc => ?_⟩
    · simp only [if_neg (hnot i tracked hi)] at hended
      exact h.tracked i tracked hi hconn hended
    · have hnodup := hsound.nodup
      have hrest : c ∈ s.dialing ∨ c ∈ s.connecting := by simpa [Core.asked] using hc
      have hdials : c ∉ s.dials := by
        intro hdials
        rw [Core.asked, List.append_assoc, List.nodup_append] at hnodup
        rcases hrest with hrest | hrest
        · exact hnodup.2.2 c hrest c (List.mem_append_left _ hdials) rfl
        · exact (List.nodup_append.mp hnodup.2.1).2.2 c hdials c hrest rfl
      simp only [if_neg hdials]
      refine h.asked c ?_
      rcases hrest with hrest | hrest
      · exact List.mem_append_left _ (List.mem_append_left _ hrest)
      · exact List.mem_append_right _ hrest
  | markGone => exact ⟨h.tracked, h.asked⟩
  | complete hmay sent => exact ⟨h.tracked, h.asked⟩
  | advance hmay progress => exact ⟨h.tracked, h.asked⟩

theorem Marked.takes (hdraining : StaysDraining κ) (hsound : Sound (core w)) (h : Marked (core w))
    (htakes : Takes { silent := fun _ => False } w w') : Marked (core w') := by
  have hboth := htakes.invariant (I := fun s => Sound s ∧ Marked s)
    (fun ⟨hsound, h⟩ hstep => ⟨hsound.step hstep, h.step hdraining hsound hstep⟩) ⟨hsound, h⟩
  exact hboth.2

theorem marked_act (action : Action) (hsound : Sound (core w)) (h : Marked (core w)) : Marked (core (w.act action)) := by
  have hact : HandleStep (fun _ => True) w (w.act action) := handleStep_act action fun _ _ => True.intro
  obtain ⟨more, hasked, -, hmore⟩ := hact.asked
  rw [← asked_core, ← asked_core] at hasked
  refine ⟨fun i tracked hi hconn hended => ?_, fun c hc => ?_⟩
  · simp only [core, hact.driver] at hi
    have hclosed := (hact.shareds tracked.shared (hsound.tracked i tracked hi).2.1).closed
    exact h.tracked i tracked hi hconn (hclosed ▸ hended)
  · rcases List.mem_append.mp (hasked.mem_iff.mp hc) with hc | hc
    · exact (hact.shareds c (hsound.below c hc)).closed.trans (h.asked c hc)
    · exact (hmore c hc).2.2

end Marked

/-! ## The progress of `evict` -/

/-- What `evict` has got to: the connections that it is going to look at, and those that it found done and is
going to remove. Behind an ending of the driver nothing is evicted. -/
inductive Sweep
  | working
  | sweeping (todo dead : List ℕ)
  | stopping

def nextSweep : {β : Type} → Sweep → Op κ β → β → Sweep
  | _, .stopping, _, _ => .stopping
  | _, _, .failAll _, _ => .stopping
  | _, _, .keys, keys => .sweeping keys []
  | _, .sweeping todo dead, .isDone index, done => .sweeping (todo.erase index) (if done then index :: dead else dead)
  | _, .sweeping todo dead, .remove index, _ => .sweeping todo (dead.erase index)
  | _, _, _, _ => .working

def allowsSweep : {β : Type} → Sweep → Op κ β → Prop
  | _, .sweeping todo _, .isDone index => index ∈ todo
  | _, .sweeping _ dead, .remove index => index ∈ dead
  | _, _, .isDone _ | _, _, .remove _ => False
  | _, k, .rearm => k = .sweeping [] []
  | _, _, .failAll _ | _, _, .failDials _ | _, _, .markGone => True
  | _, k, _ => k ≠ .stopping

/-- The timer is rearmed once every connection was looked at, and those that were found done are removed. -/
def sweep : Protocol (Op κ) Sweep where
  next := nextSweep
  allows := allowsSweep
  expects _ _ := True

/-- The driver goes on. -/
def Going (k : Sweep) : Prop := k ≠ .stopping

theorem plain_sweep {β : Type} (op : Op κ β) (h : Routine op) : Plain (sweep (κ := κ)) Going op := by
  intro k hk
  cases k with
  | stopping => exact (hk rfl).elim
  | _ =>
    cases op
    all_goals first
      | exact h.elim
      | exact ⟨nofun, fun _ => nofun⟩

theorem stop_sweep {α : Type} : Keeps (sweep (κ := κ)) Going (fun _ => True) (stop : DriverM κ α) :=
  fun k _ => by cases k <;> exact ⟨True.intro, fun _ _ => ⟨True.intro, fun _ _ => True.intro⟩⟩

variable {E : Error → Sweep → Prop}

theorem follows_findDead (indices dead : List ℕ) :
    Follows (sweep (κ := κ)) (fun found k => ∃ dead', k = .sweeping [] dead' ∧ dead'.Perm (found ++ dead)) E
      (findDead indices : DriverM κ (List ℕ)) (.sweeping indices dead) := by
  induction indices generalizing dead with
  | nil => exact ⟨dead, rfl, List.Perm.refl dead⟩
  | cons index indices ih =>
    rw [findDead]
    refine follows_bind.mpr ⟨List.mem_cons_self, fun done _ => follows_bind.mpr ?_⟩
    have hnext : (sweep (κ := κ)).next (.sweeping (index :: indices) dead) (.isDone index) done =
        .sweeping indices (if done then index :: dead else dead) :=
      congrArg (Sweep.sweeping · _) (List.erase_cons_head ..)
    rw [hnext]
    refine Follows.mono (ih _) ?_ fun _ _ h => h
    rintro found k ⟨dead', rfl, hperm⟩
    refine ⟨dead', rfl, ?_⟩
    cases done with
    | true => exact hperm.trans List.perm_middle
    | false => exact hperm

theorem follows_removeDead (found dead : List ℕ) (h : dead.Perm found) :
    Follows (sweep (κ := κ)) (fun _ k => k = .sweeping [] []) E (removeDead found : DriverM κ Unit) (.sweeping [] dead) := by
  induction found generalizing dead with
  | nil =>
    rw [h.eq_nil]
    rfl
  | cons index found ih =>
    refine ⟨h.mem_iff.mpr List.mem_cons_self, fun _ _ => ih _ ?_⟩
    have herase := h.erase index
    rw [List.erase_cons_head] at herase
    exact herase

variable {k : Sweep}

theorem follows_evict (hk : Going k) :
    Follows (sweep (κ := κ)) (fun _ k => k = .sweeping [] []) E (evict : DriverM κ Unit) k := by
  rw [evict]
  have hnext : ∀ keys, (sweep (κ := κ)).next k .keys keys = .sweeping keys [] := by
    cases k with
    | stopping => exact (hk rfl).elim
    | _ => exact fun _ => rfl
  refine follows_bind.mpr ⟨?_, fun keys _ => follows_bind.mpr ?_⟩
  · cases k with
    | stopping => exact (hk rfl).elim
    | _ => rintro ⟨⟩
  rw [hnext]
  refine Follows.mono (follows_findDead keys []) ?_ fun _ _ h => h
  rintro found k ⟨dead, rfl, hperm⟩
  rw [List.append_nil] at hperm
  exact follows_removeDead found dead hperm

theorem follows_service (fuel : ℕ) (hk : Going k) :
    Follows (sweep (κ := κ)) (fun _ k => k = .sweeping [] []) (fun _ _ => True) (service fuel : DriverM κ Unit) k := by
  have hcommands : ∀ index, Keeps (sweep (κ := κ)) Going (fun _ => True) (applyCommands index : DriverM κ Unit) := by
    intro index
    refine keeps_applyCommands ?_ ?_
    all_goals
      intro k hk
      cases k with
      | stopping => exact (hk rfl).elim
      | _ => exact ⟨nofun, fun _ => nofun⟩
  have hrest : Keeps (sweep (κ := κ)) Going (fun _ => True) (perform .keys >>= fun indices => serviceEach indices >>=
      fun _ => flush fuel : DriverM κ Unit) :=
    keeps_bind (keeps_routine plain_sweep True.intro) fun indices =>
      keeps_bind (keeps_serviceEach plain_sweep hcommands indices) fun _ => keeps_flush plain_sweep stop_sweep fuel
  have hservice : (service fuel : DriverM κ Unit) = (perform .keys >>= fun indices => serviceEach indices >>=
      fun _ => flush fuel) >>= fun _ => evict := by
    simp only [service, bind_assoc]
  rw [hservice]
  refine follows_bind.mpr (Follows.mono (hrest k hk) ?_ fun _ _ h => h)
  exact fun _ k' hk' => follows_evict hk'

theorem follows_passes (config : Config) (fuel n : ℕ) (hk : Going k) :
    Follows (sweep (κ := κ)) (fun _ k => Going k) (fun _ _ => True) (passes config fuel n : DriverM κ Unit) k := by
  induction n generalizing k with
  | zero => exact hk
  | succ n ih =>
    rw [passes, ← bind_assoc]
    have hdials : Keeps (sweep (κ := κ)) Going (fun _ => True) (perform .drainDials >>= dialAll : DriverM κ Unit) := by
      refine keeps_dials ?_ ?_
      all_goals
        intro k hk
        cases k with
        | stopping => exact (hk rfl).elim
        | _ => exact ⟨by rintro ⟨⟩, fun _ => by rintro ⟨⟩⟩
    refine follows_bind.mpr (Follows.mono (hdials k hk) (fun _ k hk => ?_) fun _ _ h => h)
    have hbegin : ∀ datagram source, Plain (sweep (κ := κ)) Going (.begin datagram source) := by
      intro datagram source k hk
      cases k with
      | stopping => exact (hk rfl).elim
      | _ => exact ⟨by rintro ⟨⟩, fun _ => by rintro ⟨⟩⟩
    have hrecv : Plain (sweep (κ := κ)) Going .pollRecv := by
      intro k hk
      cases k with
      | stopping => exact (hk rfl).elim
      | _ => exact ⟨by rintro ⟨⟩, fun _ => by rintro ⟨⟩⟩
    have hread := keeps_readDatagrams stop_sweep hrecv config (keeps_dispatch plain_sweep hbegin config)
      config.datagramsPerPass false k hk
    refine follows_bind.mpr (Follows.mono hread (fun read k hk => ?_) fun _ _ h => h)
    refine follows_bind.mpr (Follows.mono (follows_service fuel hk) ?_ fun _ _ h => h)
    rintro _ _ rfl
    refine follows_bind.mpr ⟨rfl, fun fired _ => ?_⟩
    have hworking : Going Sweep.working := by rintro ⟨⟩
    split
    · exact hworking
    cases fired with
    | true => exact follows_bind.mpr ⟨hworking, fun pending _ => ih hworking⟩
    | false =>
      refine follows_bind.mpr ⟨hworking, fun pending _ => ?_⟩
      show Follows _ _ _ (if _ then _ else _) _
      split
      · exact hworking
      · exact ih hworking

theorem follows_run (config : Config) (fuel n : ℕ) (hk : Going k) :
    Follows (sweep (κ := κ)) (fun _ _ => True) (fun _ _ => True) (run config fuel n : DriverM κ Unit) k := by
  induction n generalizing k with
  | zero => exact True.intro
  | succ n ih =>
    rw [run]
    have hawait : Follows (sweep (κ := κ)) (fun _ k => Going k) (fun _ _ => True) (perform .await : DriverM κ Unit) k := by
      cases k with
      | stopping => exact (hk rfl).elim
      | _ => exact ⟨by rintro ⟨⟩, fun _ _ => by rintro ⟨⟩⟩
    refine follows_bind.mpr (Follows.mono hawait (fun _ k hk => ?_) fun _ _ h => h)
    refine follows_bind.mpr (Follows.mono (follows_passes config fuel 8 hk) (fun _ k hk => ?_) fun _ _ h => h)
    exact ih hk

section Runs
variable [Transport κ] [Socket σ] [Platform π κ] {config : Config} {fuel : ℕ} {socket : σ} {platform : π}
  {detachable : Bool} {choices : List (Choice Action)}

theorem conduct (config : Config) (fuel : ℕ) :
    Conduct (endpoint (κ := κ) (σ := σ) (π := π) config fuel) (sweep (κ := κ)) (fun _ => True) (fun _ => True) where
  cleanup k _ := by
    cases k
    all_goals exact ⟨True.intro, fun _ _ => ⟨True.intro, fun _ _ => ⟨True.intro, fun _ _ => True.intro⟩⟩⟩
  yields _ _ _ _ := True.intro

/-! ## Runs -/

/-- No operation tells a connection of an end that `evict` does not see. -/
def TellsEvict {β : Type} (op : Op κ β) (w : World κ σ π) : Prop := failsSilently op w = false

instance {β : Type} (op : Op κ β) (w : World κ σ π) : Decidable (TellsEvict op w) :=
  inferInstanceAs (Decidable (_ = false))

/-- A connection that the endpoint drives, that has ended and that has nothing to send. -/
structure Dead (w : World κ σ π) (tracked : Tracked κ) : Prop where
  driven : tracked.conn.isSome = true
  closed : (w.shareds tracked.shared).closed = true
  pending : tracked.pending = none

/-- Its handle was told of its end, or, where it has an owner instead, its owner is done with it. -/
def Ended (w : World κ σ π) (tracked : Tracked κ) : Prop :=
  (w.shareds tracked.shared).closed = true ∨ tracked.conn = none ∧ (w.shareds tracked.shared).terminal = true

/-- What the evictions of a run are like: `evict` sees the end of every connection that has ended and has nothing
to send, only what has ended is removed, and behind a pass no connection is left that has ended and has nothing
to send. -/
def EvictsDead {β : Type} (op : Op κ β) (w : World κ σ π) : Prop :=
  match op with
  | .isDone index => ∀ tracked, w.driver.connections[index]? = some tracked → Dead w tracked →
    tracked.finished = true ∨ ∃ conn, tracked.conn = some conn ∧ Transport.inDrainingPeriod conn = true
  | .remove index => ∀ tracked, w.driver.connections[index]? = some tracked → Ended w tracked
  | .rearm => ∀ (index : ℕ) (tracked : Tracked κ), w.driver.connections[index]? = some tracked → ¬ Dead w tracked
  | _ => True

/-- Every route leads to a connection that is tracked. -/
def RoutesLead (w : World κ σ π) : Prop := ∀ route ∈ w.driver.routes, (w.driver.connections[route.2]?).isSome = true

/-- What was found done on the way through a pass, and not removed yet, has ended. -/
def Finds (w : World κ σ π) (k : Sweep) : Prop := ∀ todo dead, k = .sweeping todo dead → ∀ i ∈ dead, ∀ tracked,
  w.driver.connections[i]? = some tracked → Ended w tracked

/-- What is known on the way through a pass. -/
structure Swept (w : World κ σ π) (k : Sweep) : Prop where
  sound : Sound (core w)
  marked : Going k → Marked (core w)
  left : ∀ todo dead, k = .sweeping todo dead → ∀ (i : ℕ) (tracked : Tracked κ),
    w.driver.connections[i]? = some tracked → Dead w tracked → i ∈ todo ∨ i ∈ dead
  found : Finds w k

variable {β : Type} {k : Sweep}

omit [Transport κ] [Socket σ] [Platform π κ] in
theorem going_of_next {op : Op κ β} {b : β} (h : Going (nextSweep k op b)) :
    Going k ∧ failsAll op = false := by
  cases k with
  | stopping => exact (h rfl).elim
  | _ =>
    cases op
    case failAll => exact (h rfl).elim
    all_goals exact ⟨nofun, rfl⟩

theorem marked_applyOp {op : Op κ β} {b : β} (hdraining : StaysDraining κ) (h : Swept w k)
    (hgood : TellsEvict op w) (hgoing : Going (nextSweep k op b)) : Marked (core (w.applyOp op).2) := by
  obtain ⟨hk, hnot⟩ := going_of_next hgoing
  have hall := permits_all op w
  refine (h.marked hk).takes hdraining h.sound (takes_applyOp op { hall with silent := fun hsilent => ?_ })
  have hgood : failsSilently op w = false := hgood
  rw [hgood, hnot] at hsilent
  cases hsilent

omit [Socket σ] [Platform π κ] in
theorem isDone_of_dead (hmarked : Marked (core w)) (htracked : w.driver.connections[i]? = some tracked)
    (hdead : Dead w tracked) : w.isDone i = true := by
  have hover := hmarked.tracked i tracked htracked hdead.driven hdead.closed
  obtain ⟨conn, hconn⟩ := Option.isSome_iff_exists.mp hdead.driven
  simp only [isOver, hconn, Option.any_some, Bool.or_eq_true] at hover
  simp only [World.isDone, htracked, hconn, hdead.closed, hdead.pending, Option.isNone_none, Bool.true_and, Bool.or_eq_true]
  exact hover.symm

omit [Socket σ] [Platform π κ] in
theorem ended_of_isDone (hdone : w.isDone i = true) (htracked : w.driver.connections[i]? = some tracked) :
    Ended w tracked := by
  rw [World.isDone, htracked] at hdone
  cases hconn : tracked.conn with
  | some conn =>
    simp only [hconn, Bool.and_eq_true] at hdone
    exact .inl hdone.1.1
  | none =>
    simp only [hconn, Bool.and_eq_true] at hdone
    exact .inr ⟨hconn, hdone.1⟩

theorem mem_keys (htracked : w.driver.connections[i]? = some tracked) : i ∈ (w.applyOp (.keys : Op κ (List ℕ))).1 := by
  refine (Platform.arrange (κ := κ) w.driver.connections.keys w.driver.platform).1.property.mem_iff.mpr ?_
  refine Std.TreeMap.mem_keys.mpr (Std.TreeMap.mem_iff_isSome_getElem?.mpr ?_)
  exact Option.isSome_iff_exists.mpr ⟨tracked, htracked⟩

omit [Transport κ] [Socket σ] [Platform π κ] in
theorem tracked_remove (htracked : (w.remove j).driver.connections[i]? = some tracked) :
    i ≠ j ∧ w.driver.connections[i]? = some tracked := by
  simp only [World.remove, World.onDriver, Std.TreeMap.getElem?_erase] at htracked
  split at htracked
  · cases htracked
  · rename_i hne
    exact ⟨fun heq => hne (by simp [heq]), htracked⟩

theorem left_applyOp (op : Op κ β) {todo dead : List ℕ} (h : Swept w k)
    (hk : nextSweep k op (w.applyOp op).1 = .sweeping todo dead)
    (htracked : (w.applyOp op).2.driver.connections[i]? = some tracked) (hdead : Dead (w.applyOp op).2 tracked) :
    i ∈ todo ∨ i ∈ dead := by
  cases k with
  | stopping => cases hk
  | working =>
    cases op
    case keys =>
      cases hk
      exact .inl (mem_keys htracked)
    all_goals cases hk
  | sweeping todo' dead' =>
    cases op
    case keys =>
      cases hk
      exact .inl (mem_keys htracked)
    case isDone index =>
      obtain ⟨rfl, rfl⟩ := Sweep.sweeping.inj hk
      have hold := h.left todo' dead' rfl i tracked htracked hdead
      by_cases hi : i = index
      · subst hi
        have hdone : w.isDone i = true := isDone_of_dead (h.marked nofun) htracked hdead
        rw [show (w.applyOp (.isDone i)).1 = true from hdone, if_pos rfl]
        exact .inr List.mem_cons_self
      · refine hold.imp (fun htodo => (List.mem_erase_of_ne hi).mpr htodo) fun hdead => ?_
        split
        · exact List.mem_cons_of_mem _ hdead
        · exact hdead
    case remove index =>
      obtain ⟨rfl, rfl⟩ := Sweep.sweeping.inj hk
      obtain ⟨hne, hold⟩ := tracked_remove htracked
      refine (h.left todo' dead' rfl i tracked hold ⟨hdead.driven, hdead.closed, hdead.pending⟩).imp_right fun hdead => ?_
      exact (List.mem_erase_of_ne hne).mpr hdead
    all_goals cases hk

theorem finds_applyOp (op : Op κ β) (h : Finds w k) :
    Finds (w.applyOp op).2 (nextSweep k op (w.applyOp op).1) := by
  intro todo dead hk i hi tracked htracked
  cases k with
  | stopping => cases hk
  | working =>
    cases op
    case keys =>
      cases hk
      cases hi
    all_goals cases hk
  | sweeping todo' dead' =>
    cases op
    case keys =>
      cases hk
      cases hi
    case isDone index =>
      obtain ⟨rfl, rfl⟩ := Sweep.sweeping.inj hk
      split at hi
      · rename_i hdone
        rcases List.mem_cons.mp hi with rfl | hi
        · exact ended_of_isDone hdone htracked
        · exact h todo' dead' rfl i hi tracked htracked
      · exact h todo' dead' rfl i hi tracked htracked
    case remove index =>
      obtain ⟨rfl, rfl⟩ := Sweep.sweeping.inj hk
      exact h todo' dead' rfl i (List.mem_of_mem_erase hi) tracked (tracked_remove htracked).2
    all_goals cases hk

omit [Transport κ] [Socket σ] [Platform π κ] in
theorem finds_act (action : Action) (hsound : Sound (core w)) (h : Finds w k) : Finds (w.act action) k := by
  have hact : HandleStep (fun _ => True) w (w.act action) := handleStep_act action fun _ _ => True.intro
  intro todo dead hk i hi tracked htracked
  rw [hact.driver] at htracked
  have hshared := hact.shareds _ (hsound.tracked i tracked htracked).2.1
  rcases h todo dead hk i hi tracked htracked with hclosed | ⟨hconn, hterminal⟩
  · exact .inl (hshared.closed.trans hclosed)
  · exact .inr ⟨hconn, hshared.terminal hterminal⟩

theorem swept_applyOp (op : Op κ β) (hdraining : StaysDraining κ) (h : Swept w k)
    (hgood : TellsEvict op w) :
    Swept (w.applyOp op).2 (nextSweep k op (w.applyOp op).1) where
  sound := sound_applyOp op h.sound
  marked hgoing := marked_applyOp hdraining h hgood hgoing
  left _ _ hk _ _ htracked hdead := left_applyOp op h hk htracked hdead
  found := finds_applyOp op h.found

omit [Socket σ] [Platform π κ] in
theorem swept_act (action : Action) (h : Swept w k) : Swept (w.act action) k := by
  have hact : HandleStep (fun _ => True) w (w.act action) := handleStep_act action fun _ _ => True.intro
  refine ⟨sound_act action h.sound, fun hk => marked_act action h.sound (h.marked hk), ?_, finds_act action h.sound h.found⟩
  intro todo dead hk i tracked htracked hdead
  rw [hact.driver] at htracked
  have hshared := hact.shareds _ (h.sound.tracked i tracked htracked).2.1
  exact h.left todo dead hk i tracked htracked ⟨hdead.driven, hshared.closed.symm.trans hdead.closed, hdead.pending⟩

omit [Socket σ] [Platform π κ] in
theorem swept_built : Swept (built socket platform detachable : World κ σ π) .working where
  sound := sound_built socket platform detachable
  marked _ := ⟨fun i tracked h => by simp [core, built] at h, fun c hc => by simp [core, built, Core.asked] at hc⟩
  left _ _ h := nomatch h
  found _ _ h := nomatch h

/-- Only what has ended is removed. -/
def RemovesEnded {β : Type} (op : Op κ β) (w : World κ σ π) : Prop := ∀ i, removedBy op = some i → ∀ tracked,
  w.driver.connections[i]? = some tracked → Ended w tracked

omit [Transport κ] [Socket σ] [Platform π κ] in
theorem removesEnded_of_finds {op : Op κ β} (h : Finds w k) (hallowed : allowsSweep k op) :
    RemovesEnded op w := by
  intro i hi
  cases op
  case remove index =>
    obtain rfl := Option.some.inj hi
    cases k with
    | sweeping todo dead => exact h todo dead rfl index hallowed
    | _ => exact hallowed.elim
  all_goals cases hi

section Careful
variable {good : {β : Type} → Op κ β → World κ σ π → Prop} {fair : Action → World κ σ π → Prop}

theorem careful_ended (h : (endpoint (κ := κ) config fuel).Careful (built socket platform detachable) good fair choices) :
    (endpoint (κ := κ) config fuel).Careful (built socket platform detachable)
      (fun op w => good op w ∧ Sound (core w) ∧ RemovesEnded op w) (fun action w => fair action w ∧ Sound (core w))
      choices := by
  have hsound : (endpoint (κ := κ) config fuel).Careful (built socket platform detachable)
      (fun op w => good op w ∧ Sound (core w)) (fun action w => fair action w ∧ Sound (core w)) choices :=
    careful_invariant (sound_built socket platform detachable) (fun op w hI _ => sound_applyOp op hI)
      (fun action w hI _ => sound_act action hI) h
  have hfollows := careful_follows (k := .working) Finds (conduct config fuel) nofun
    (Follows.mono (follows_run config fuel fuel nofun) (fun _ _ h => h) fun _ _ h => ⟨h, h⟩)
    (fun op w k hfinds _ _ => ⟨True.intro, finds_applyOp op hfinds⟩)
    (fun action w k hfinds hfair => finds_act action hfair.2 hfinds) hsound
  refine hfollows.mono ?_ fun _ _ h => h
  rintro β op w ⟨⟨hgood, hsound⟩, k, hfinds, hallowed⟩
  exact ⟨hgood, hsound, removesEnded_of_finds hfinds hallowed⟩

end Careful

omit [Socket σ] [Platform π κ] in
theorem evictsDead_of_swept {op : Op κ β} (h : Swept w k) (hallowed : allowsSweep k op) :
    EvictsDead op w := by
  cases op
  case isDone index =>
    intro tracked htracked hdead
    have hgoing : Going k := by
      rintro rfl
      exact hallowed
    have hover := (h.marked hgoing).tracked index tracked htracked hdead.driven hdead.closed
    obtain ⟨conn, hconn⟩ := Option.isSome_iff_exists.mp hdead.driven
    simp only [isOver, hconn, Option.any_some, Bool.or_eq_true] at hover
    exact hover.imp_right fun hdraining => ⟨conn, hconn, hdraining⟩
  case remove index =>
    cases k with
    | sweeping todo dead => exact h.found todo dead rfl index hallowed
    | _ => exact hallowed.elim
  case rearm =>
    intro i tracked htracked hdead
    have hk : k = .sweeping [] [] := by
      cases k
      all_goals exact hallowed
    rcases h.left [] [] hk i tracked htracked hdead with hnil | hnil
    all_goals cases hnil
  all_goals exact True.intro

end Runs

/-! ## A handshake that runs out of time -/

def dialling (n : ℕ) : List (Choice Action) :=
  [.other (.connect 0 none false), .other (.pushDial 0)] ++ List.replicate n .own

/-- A dial whose timer has fired once the pass gets to it, with that answer. -/
def expired (answer : Except CoreError ExpiryOutcome) (n : ℕ) : InterleavedPrograms.Config (Op ScriptedConn) Error Unit ScriptedWorld :=
  (scripted {}).reached (built {} { conns := [{ expiries := [(0, answer, [])] }] } false) (dialling n)

/-- The driver has come to the end of a service pass, and tracks a connection that has ended. -/
def leavesDead (c : InterleavedPrograms.Config (Op ScriptedConn) Error Unit ScriptedWorld) : Bool :=
  match c.stage with
  | .running (.act .rearm _) => c.state.driver.connections.toList.any fun (_, tracked) =>
    tracked.conn.isSome && (c.state.shareds tracked.shared).closed && tracked.pending.isNone
  | _ => false

theorem leavesDead_of_next {c : InterleavedPrograms.Config (Op ScriptedConn) Error Unit ScriptedWorld}
    (h : c.Next EvictsDead) : leavesDead c = false := by
  obtain ⟨stage, w⟩ := c
  rcases stage with (_ | _ | _ | ⟨op, next⟩) | _ | _
  case running.act =>
    cases op
    case rearm =>
      rw [leavesDead, List.any_eq_false]
      intro ⟨i, tracked⟩ hentry hdead
      simp only [Bool.and_eq_true, Option.isNone_iff_eq_none] at hdead
      exact h i tracked (Std.TreeMap.mem_toList_iff_getElem?_eq_some.mp hentry) ⟨hdead.1.1, hdead.1.2, hdead.2⟩
    all_goals rfl
  all_goals rfl

end Ngnet.QuicEvictions
