import Ngnet.QuicDialling

/-!
# The timer of an endpoint

Every pass ends with the timer rearmed, for the earliest deadline of the connections that were not marked. What
was marked has ended, so that no connection that has not ended is left out. A sleep that is over is not armed
again in its pass: the poll goes on to its next pass, unless that was the eighth. Where such a poll has read
nothing, it returns with no timer armed, whoever is waiting for one.
-/

namespace Ngnet.QuicTimers
open QmuxVarints InterleavedPrograms QuicEndpoint QuicEndpointDriver QuicEndpointSteps QuicConnectionTable
open QuicEndpointProtocols QuicEvictions QuicDialling QuicScriptedHost
open QmuxConnection (Poll)

variable {κ σ π : Type} {w w' : World κ σ π} {i j c d : ℕ} {tracked tracked' : Tracked κ} {s s' : Core κ}

/-! ## Marks -/

/-- A connection that was marked has ended, and was told so. -/
def MarksEnded (s : Core κ) : Prop :=
  ∀ i tracked, s.tracked i = some tracked → tracked.finished = true → (s.shareds tracked.shared).closed = true

theorem MarksEnded.of_told (h : MarksEnded s) (htracked : s'.tracked = s.tracked)
    (htold : ∀ c, Told (s.shareds c) (s'.shareds c)) : MarksEnded s' := by
  intro i tracked hi hfinished
  rw [htracked] at hi
  exact (htold _).closed (h i tracked hi hfinished)

theorem MarksEnded.modifyShared (h : MarksEnded s) {f : ConnectionShared → ConnectionShared}
    (hf : Told (s.shareds c) (f (s.shareds c))) : MarksEnded (s.modifyShared c f) :=
  h.of_told rfl (told_modifyShared hf)

theorem MarksEnded.setTracked (h : MarksEnded s) {entry : Option (Tracked κ)} (hentry : ∀ tracked, entry = some tracked →
    tracked.finished = true → (s.shareds tracked.shared).closed = true) : MarksEnded (s.setTracked i entry) := by
  intro j tracked hj hfinished
  rcases tracked_setTracked hj with ⟨-, heq⟩ | ⟨-, hj⟩
  · exact hentry tracked heq hfinished
  · exact h j tracked hj hfinished

theorem MarksEnded.update (h : MarksEnded s) (htracked : s.tracked i = some tracked) (hshared : tracked'.shared = tracked.shared)
    (hfinished : tracked'.finished = tracked.finished) : MarksEnded (s.setTracked i (some tracked')) := by
  refine h.setTracked fun t heq hmarked => ?_
  cases heq
  rw [hshared]
  rw [hfinished] at hmarked
  exact h i tracked htracked hmarked

theorem MarksEnded.ask (hsound : Sound s) (h : MarksEnded s) (shared : ConnectionShared) : MarksEnded (s.ask shared) := by
  intro i tracked hi hfinished
  have hne : tracked.shared ≠ s.created := (hsound.tracked i tracked hi).2.1.ne
  simpa [Core.ask, Function.update_of_ne hne] using h i tracked hi hfinished

section Steps
variable [Transport κ] {may : May κ}

theorem MarksEnded.install (h : MarksEnded s) (conn : κ) (c : ℕ) (remote : Address) : MarksEnded (s.install conn c remote) := by
  have hset : MarksEnded (s.setTracked s.nextIndex (some { conn := some conn, shared := c, remote })) := by
    refine h.setTracked fun tracked heq hfinished => ?_
    cases heq
    cases hfinished
  exact hset

theorem MarksEnded.step (hsound : Sound s) (h : MarksEnded s) (hstep : Step may s s') : MarksEnded s' := by
  cases hstep with
  | share c hf => exact h.modifyShared (told_of_eq hf.closed hf.established)
  | @call i tracked conn htracked hconn _ call =>
    have hset : MarksEnded (s.setTracked i (some { tracked with conn := some (Transport.call call conn).2.2 })) :=
      h.update htracked rfl rfl
    have hnotes := handled_notes True (s.shareds tracked.shared) (Transport.call call conn).2.1
    have hcalled : MarksEnded ((s.setTracked i (some { tracked with conn := some (Transport.call call conn).2.2 })).modifyShared
        tracked.shared fun shared => (Transport.call call conn).2.1.foldl .note shared) :=
      hset.modifyShared (told_of_eq hnotes.closed hnotes.established)
    exact hcalled
  | pend htracked pending => exact h.update htracked rfl rfl
  | @finish i tracked htracked error =>
    intro j t hj hfinished
    rcases tracked_setTracked hj with ⟨-, heq⟩ | ⟨-, hj⟩
    · cases heq
      simp [Core.modifyShared, ConnectionShared.fail]
    · exact (told_modifyShared (told_fail _ error) t.shared).closed (h j t hj hfinished)
  | fail htracked hover error => exact h.modifyShared (told_fail _ error)
  | failSilently hsilent error => exact h.modifyShared (told_fail _ error)
  | establish htracked => exact h.modifyShared ⟨id, fun _ => rfl⟩
  | @handOver i tracked conn htracked hconn hdetach hestablished hmay =>
    have hset : MarksEnded (s.setTracked i (some { tracked with conn := none })) := h.update htracked rfl rfl
    exact hset
  | ask hfresh => exact h.ask hsound _
  | @dial c dialing hdialing conn remote hmay =>
    have hdialled : MarksEnded ({ s with dialing } : Core κ) := h
    exact hdialled.install conn c remote
  | @undial c dialing hdialing error =>
    have hdialled : MarksEnded ({ s with dialing } : Core κ) := h
    exact hdialled.modifyShared (told_fail _ error)
  | accept hfresh conn remote hmay => exact (h.ask hsound _).install conn _ remote
  | @applyRoutes i tracked htracked hmay =>
    have hemptied : MarksEnded (s.modifyShared tracked.shared ({ · with routes := [] })) := h.modifyShared ⟨id, id⟩
    exact hemptied
  | remove i hmay =>
    have hset : MarksEnded (s.setTracked i none) := h.setTracked (by simp)
    exact hset
  | failDials error =>
    refine h.of_told rfl fun c => ?_
    dsimp only
    split
    · exact told_fail _ error
    · exact ⟨id, id⟩
  | drain hmay => exact h
  | markGone => exact h
  | complete hmay sent => exact h
  | advance hmay progress => exact h

theorem MarksEnded.takes (hsound : Sound (core w)) (h : MarksEnded (core w)) (htakes : Takes may w w') :
    MarksEnded (core w') := by
  have hboth := htakes.invariant (I := fun s => Sound s ∧ MarksEnded s)
    (fun ⟨hsound, h⟩ hstep => ⟨hsound.step hstep, h.step hsound hstep⟩) ⟨hsound, h⟩
  exact hboth.2

end Steps

theorem marksEnded_act (action : Action) (hsound : Sound (core w)) (h : MarksEnded (core w)) :
    MarksEnded (core (w.act action)) := by
  have hact : HandleStep (fun _ => True) w (w.act action) := handleStep_act action fun _ _ => True.intro
  intro i tracked hi hfinished
  simp only [core, hact.driver] at hi
  exact (hact.shareds _ (hsound.tracked i tracked hi).2.1).closed.trans (h i tracked hi hfinished)

/-! ## The timer -/

section Timer
variable [Transport κ]

/-- A connection that the endpoint drives and that has not ended is to be served at that time. -/
def Expires (w : World κ σ π) (deadline : ℕ) : Prop := ∃ (i : ℕ) (tracked : Tracked κ) (conn : κ),
  w.driver.connections[i]? = some tracked ∧ tracked.conn = some conn ∧ (w.shareds tracked.shared).closed = false ∧
    Transport.expiry conn = some deadline

/-- A sleep is armed that is over by every such time. -/
def Armed (w : World κ σ π) : Prop :=
  ∀ deadline, Expires w deadline → ∃ armed, w.driver.sleepingUntil = some armed ∧ armed ≤ deadline

theorem expires_congr (hconnections : w'.driver.connections = w.driver.connections) (hshareds : w'.shareds = w.shareds) :
    Expires w' d ↔ Expires w d := by
  simp only [Expires, hconnections, hshareds]

theorem earliestExpiry_le (hmarks : MarksEnded (core w)) {deadline : ℕ} (h : Expires w deadline) :
    ∃ earliest, w.earliestExpiry = some earliest ∧ earliest ≤ deadline := by
  obtain ⟨i, tracked, conn, htracked, hconn, hopen, hexpiry⟩ := h
  have hunmarked : tracked.finished = false := by
    by_contra hmarked
    have hclosed := hmarks i tracked htracked (by simpa using hmarked)
    have hopen : ((core w).shareds tracked.shared).closed = false := hopen
    rw [hopen] at hclosed
    cases hclosed
  have hmem : deadline ∈ w.driver.connections.toList.filterMap fun entry =>
      if entry.2.finished then none else entry.2.conn.bind Transport.expiry := by
    refine List.mem_filterMap.mpr ⟨(i, tracked), Std.TreeMap.mem_toList_iff_getElem?_eq_some.mpr htracked, ?_⟩
    simp [hunmarked, hconn, hexpiry]
  rw [World.earliestExpiry]
  exact ⟨_, (Option.some_get (List.isSome_min?_of_mem hmem)).symm, List.min?_get_le_of_mem hmem⟩

variable [Platform π κ]

/-- The sleep for the earliest deadline is over already. -/
def SleepOver (w : World κ σ π) : Prop :=
  ∃ deadline, w.earliestExpiry = some deadline ∧ (Platform.pollSleep (κ := κ) deadline w.driver.platform).1 = true

theorem expires_rearm (w : World κ σ π) : Expires w.rearm.2 d ↔ Expires w d := by
  refine expires_congr ?_ ?_
  all_goals
    rw [World.rearm]
    split
    all_goals rfl

theorem rearm_fired : w.rearm.1 = true ↔ SleepOver w := by
  rw [World.rearm, SleepOver]
  split
  · rename_i h
    simp [h]
  · rename_i deadline h
    simp [h]

theorem armed_rearm (hmarks : MarksEnded (core w)) (h : ¬ SleepOver w) : Armed w.rearm.2 := by
  intro deadline hexpires
  obtain ⟨earliest, hearliest, hle⟩ := earliestExpiry_le hmarks ((expires_rearm w).mp hexpires)
  refine ⟨earliest, ?_, hle⟩
  have hpending : (Platform.pollSleep (κ := κ) earliest w.driver.platform).1 = false := by
    by_contra hover
    exact h ⟨earliest, hearliest, by simpa using hover⟩
  rw [World.rearm, hearliest]
  simp [World.onDriver, hpending]

end Timer

/-! ## Polls -/

/-- How far a poll has got: its passes, whether the last of them has read, and whether the sleep was over, if
nothing has happened since. -/
structure Pass where
  passes : ℕ := 0
  read : Bool := false
  fired : Option Bool := none

def nextPass : {β : Type} → Pass → Op κ β → β → Pass
  | _, k, .await, _ => { k with passes := 0, fired := none }
  | _, k, .drainDials, _ => { passes := k.passes + 1 }
  | _, k, .pollRecv, .ready (.ok _) => { k with read := true, fired := none }
  | _, k, .rearm, fired => { k with fired := some fired }
  | _, k, .hasPending, _ => k
  | _, k, _, _ => { k with fired := none }

/-- The poll has rearmed, and may return: it found the sleep pending, or it has read, or this is its last pass. -/
def Rested (k : Pass) : Prop := ∃ fired, k.fired = some fired ∧ (fired = true → k.read = true ∨ k.passes = 8)

def allowsPass : {β : Type} → Pass → Op κ β → Prop
  | _, k, .await => k.passes = 0 ∨ Rested k
  | _, _, _ => True

def timing : Protocol (Op κ) Pass where
  next := nextPass
  allows := allowsPass
  expects _ _ := True

/-- The poll is in a pass. -/
def In (passes : ℕ) (read : Bool) (k : Pass) : Prop := k.passes = passes ∧ k.read = read

variable {read : Bool}

theorem plain_timing {β : Type} {n : ℕ} (op : Op κ β) (h : Routine op) :
    Plain (timing (κ := κ)) (In n read) op := by
  intro k hk
  cases op
  all_goals first
    | exact h.elim
    | exact ⟨True.intro, fun _ => hk⟩

variable {k : Pass}

theorem follows_stop {α : Type} {Q : α → Pass → Prop} :
    Follows (timing (κ := κ)) Q (fun _ _ => True) (stop : DriverM κ α) k :=
  ⟨True.intro, fun _ _ => ⟨True.intro, fun _ _ => True.intro⟩⟩

theorem follows_dials (k : Pass) : Follows (timing (κ := κ)) (fun _ => In (k.passes + 1) false) (fun _ _ => True)
    (perform .drainDials >>= dialAll : DriverM κ Unit) k := by
  refine ⟨True.intro, fun n _ => ?_⟩
  have hdial : Plain (timing (κ := κ)) (In (k.passes + 1) false) .dial := fun _ hk => ⟨True.intro, fun _ => hk⟩
  exact keeps_dialAll hdial n _ ⟨rfl, rfl⟩

theorem follows_readDatagrams (config : Config) {passes : ℕ} (n : ℕ) (hk : In passes read k) :
    Follows (timing (κ := κ)) (fun read => In passes read) (fun _ _ => True) (readDatagrams config n read : DriverM κ Bool) k := by
  induction n generalizing read k with
  | zero => exact hk
  | succ n ih =>
    rw [readDatagrams]
    refine follows_bind.mpr ⟨True.intro, fun received _ => ?_⟩
    rcases received with _ | _ | ⟨datagram, source⟩
    · exact hk
    · exact follows_stop
    · have hbegin : ∀ datagram source, Plain (timing (κ := κ)) (In passes true) (.begin datagram source) :=
        fun _ _ _ hk => ⟨True.intro, fun _ => hk⟩
      have hdispatch := keeps_dispatch (E := fun _ => True) plain_timing hbegin config datagram source
      refine follows_bind.mpr (Follows.mono (hdispatch _ ⟨hk.1, rfl⟩) ?_ fun _ _ h => h)
      exact fun _ k' hk' => ih hk'

theorem keeps_timing_service (fuel : ℕ) {passes : ℕ} :
    Keeps (timing (κ := κ)) (In passes read) (fun _ => True) (service fuel : DriverM κ Unit) := by
  refine keeps_service plain_timing (fun _ _ => follows_stop) (fun index => keeps_applyCommands ?_ ?_) ?_ fuel
  · exact fun _ hk => ⟨True.intro, fun _ => hk⟩
  · exact fun _ hk => ⟨True.intro, fun _ => hk⟩
  · refine keeps_evict ?_ (fun index => ?_) fun index => ?_
    all_goals exact fun _ hk => ⟨True.intro, fun _ => hk⟩

theorem follows_passes (config : Config) (fuel n : ℕ) (hk : k.passes + n = 8) (hrested : n = 0 → Rested k) :
    Follows (timing (κ := κ)) (fun _ => Rested) (fun _ _ => True) (passes config fuel n : DriverM κ Unit) k := by
  induction n generalizing k with
  | zero => exact hrested rfl
  | succ n ih =>
    rw [passes, ← bind_assoc]
    refine follows_bind.mpr (Follows.mono (follows_dials k) (fun _ k' hk' => ?_) fun _ _ h => h)
    refine follows_bind.mpr (Follows.mono (follows_readDatagrams config _ hk') (fun read k' hk' => ?_) fun _ _ h => h)
    refine follows_bind.mpr (Follows.mono (keeps_timing_service fuel k' hk') (fun _ k' hk' => ?_) fun _ _ h => h)
    obtain ⟨hpasses, rfl⟩ := hk'
    refine follows_bind.mpr ⟨True.intro, fun fired _ => ?_⟩
    split
    · rename_i hread
      exact ⟨fired, rfl, fun _ => .inl hread⟩
    have hsum : k'.passes + n = 8 := by omega
    have hlast : n = 0 → Rested { k' with fired := some fired } := by
      intro hn
      exact ⟨fired, rfl, fun _ => .inr (by simpa [hn] using hsum)⟩
    cases fired with
    | true => exact follows_bind.mpr ⟨True.intro, fun pending _ => ih hsum hlast⟩
    | false =>
      refine follows_bind.mpr ⟨True.intro, fun pending _ => ?_⟩
      show Follows _ _ _ (if _ then _ else _) _
      split
      · exact ⟨false, rfl, by simp⟩
      · exact ih hsum hlast

theorem follows_run (config : Config) (fuel n : ℕ) (hk : k.passes = 0 ∨ Rested k) :
    Follows (timing (κ := κ)) (fun _ _ => True) (fun _ _ => True) (run config fuel n : DriverM κ Unit) k := by
  induction n generalizing k with
  | zero => exact True.intro
  | succ n ih =>
    rw [run]
    refine follows_bind.mpr ⟨hk, fun _ _ => follows_bind.mpr ?_⟩
    refine Follows.mono (follows_passes config fuel 8 (Nat.zero_add 8) (by simp)) (fun _ k hk => ?_) fun _ _ h => h
    exact ih (.inr hk)

/-! ## Runs -/

section Runs
variable [Transport κ] [Socket σ] [Platform π κ] {config : Config} {fuel : ℕ} {socket : σ} {platform : π}
  {detachable : Bool} {choices : List (Choice Action)}

theorem conduct (config : Config) (fuel : ℕ) :
    Conduct (endpoint (κ := κ) (σ := σ) (π := π) config fuel) (timing (κ := κ)) (fun _ => True) (fun _ => True) where
  cleanup _ _ := ⟨True.intro, fun _ _ => ⟨True.intro, fun _ _ => ⟨True.intro, fun _ _ => True.intro⟩⟩⟩
  yields _ _ _ _ := True.intro

/-- The last pass of a poll that has read nothing does not find the sleep over while a connection is waiting that
has not ended. -/
def RearmsInTime {β : Type} (op : Op κ β) (w : World κ σ π) : Prop :=
  match op with
  | .rearm => ¬ (w.history.progress.passes = 8 ∧ w.history.progress.woken = false ∧ SleepOver w ∧ ∃ deadline, Expires w deadline)
  | _ => True

/-- A poll that has read nothing, and so has not woken itself, returns with the timer armed. -/
def ArmsTimer {β : Type} (op : Op κ β) (w : World κ σ π) : Prop :=
  match op with
  | .await => 0 < w.history.progress.passes → w.history.progress.woken = false → Armed w
  | _ => True

/-- What is known on the way through a poll. -/
structure Timed (w : World κ σ π) (k : Pass) : Prop where
  sound : Sound (core w)
  marks : MarksEnded (core w)
  passes : w.history.progress.passes = k.passes
  read : w.history.progress.woken = k.read
  armed : ∀ fired, k.fired = some fired → k.read = false → (fired = true → k.passes = 8) → Armed w

variable {β : Type} {k : Pass}

theorem timed_progress (op : Op κ β) (h : Timed w k) :
    (w.applyOp op).2.history.progress.passes = (nextPass k op (w.applyOp op).1).passes ∧
      (w.applyOp op).2.history.progress.woken = (nextPass k op (w.applyOp op).1).read := by
  have hquiet : QuicEndpointSteps.advances op = false → _ := quiet_applyOp (w := w)
  have hpasses := h.passes
  have hread := h.read
  cases op
  case await => exact ⟨rfl, hread⟩
  case drainDials => exact ⟨congrArg (· + 1) hpasses, rfl⟩
  case pollRecv =>
    rw [World.applyOp]
    dsimp only [World.onProgress, World.onDriver]
    generalize (Socket.pollRecv w.driver.socket).1 = answer
    rcases answer with _ | _ | ⟨datagram, source⟩
    · exact ⟨hpasses, by simpa [nextPass] using hread⟩
    · exact ⟨hpasses, by simpa [nextPass] using hread⟩
    · exact ⟨hpasses, by simp [nextPass]⟩
  case keys => exact ⟨hpasses, hread⟩
  case rearm =>
    have hcore := core_rearm w
    exact ⟨(congrArg (fun s => s.progress.passes) hcore).trans hpasses,
      (congrArg (fun s => s.progress.woken) hcore).trans hread⟩
  case failDials error =>
    have hcore := core_failEach { w with endpoint := { w.endpoint with dials := [] } } w.endpoint.dials error
    exact ⟨(congrArg (fun s => s.progress.passes) hcore).trans hpasses,
      (congrArg (fun s => s.progress.woken) hcore).trans hread⟩
  all_goals
    obtain ⟨-, hprogress⟩ := hquiet rfl
    exact ⟨(congrArg Progress.passes hprogress).trans hpasses, (congrArg Progress.woken hprogress).trans hread⟩

theorem armed_applyOp (op : Op κ β) (h : Timed w k) (hgood : RearmsInTime op w) {fired : Bool}
    (hfired : (nextPass k op (w.applyOp op).1).fired = some fired) (hread : (nextPass k op (w.applyOp op).1).read = false)
    (hlast : fired = true → (nextPass k op (w.applyOp op).1).passes = 8) : Armed (w.applyOp op).2 := by
  cases op
  case hasPending => exact h.armed fired hfired hread hlast
  case rearm =>
    obtain rfl := Option.some.inj hfired
    by_cases hover : SleepOver w
    · -- Nobody is waiting for it.
      intro deadline hexpires
      refine (hgood ⟨h.passes.trans (hlast (rearm_fired.mpr hover)), h.read.trans hread, hover, deadline, ?_⟩).elim
      exact (expires_rearm w).mp hexpires
    · exact armed_rearm h.marks hover
  case pollRecv =>
    generalize (w.applyOp (.pollRecv : Op κ _)).1 = answer at hfired
    rcases answer with _ | _ | _
    all_goals cases hfired
  all_goals cases hfired

theorem timed_applyOp (op : Op κ β) (h : Timed w k) (hgood : RearmsInTime op w) :
    Timed (w.applyOp op).2 (nextPass k op (w.applyOp op).1) where
  sound := sound_applyOp op h.sound
  marks := h.marks.takes h.sound (takes_applyOp op (permits_all op w))
  passes := (timed_progress op h).1
  read := (timed_progress op h).2
  armed _ hfired hread hlast := armed_applyOp op h hgood hfired hread hlast

omit [Socket σ] [Platform π κ] in
theorem timed_act (action : Action) (h : Timed w k) : Timed (w.act action) k := by
  have hact : HandleStep (fun _ => True) w (w.act action) := handleStep_act action fun _ _ => True.intro
  refine ⟨sound_act action h.sound, marksEnded_act action h.sound h.marks, ?_, ?_, fun fired hfired hread hlast => ?_⟩
  · rw [hact.progress]
    exact h.passes
  · rw [hact.progress]
    exact h.read
  · rintro deadline ⟨i, tracked, conn, htracked, hconn, hopen, hexpiry⟩
    rw [hact.driver] at htracked
    have hclosed := (hact.shareds _ (h.sound.tracked i tracked htracked).2.1).closed
    rw [hact.driver]
    exact h.armed fired hfired hread hlast deadline ⟨i, tracked, conn, htracked, hconn, hclosed.symm.trans hopen, hexpiry⟩

omit [Socket σ] [Platform π κ] in
theorem timed_built : Timed (built socket platform detachable : World κ σ π) {} where
  sound := sound_built socket platform detachable
  marks i tracked h := by simp [core, built] at h
  passes := rfl
  read := rfl
  armed _ h := nomatch h

omit [Socket σ] [Platform π κ] in
theorem armsTimer_of_timed {op : Op κ β} (h : Timed w k) (hallowed : allowsPass k op) : ArmsTimer op w := by
  cases op
  case await =>
    intro hpolled hunwoken
    rw [h.passes] at hpolled
    rw [h.read] at hunwoken
    have hrested : Rested k := hallowed.resolve_left hpolled.ne'
    obtain ⟨fired, hfired, hlast⟩ := hrested
    refine h.armed fired hfired hunwoken fun hover => ?_
    rcases hlast hover with hread | hpasses
    · rw [hunwoken] at hread
      cases hread
    · exact hpasses
  all_goals exact True.intro

/-- In every run in which no poll ends its eighth pass, having read nothing, with the sleep over and a connection
waiting for the next, every poll that has not woken itself returns with the timer armed for the earliest deadline
of those that have not ended. -/
theorem armsTimer_reached
    (h : (endpoint (κ := κ) config fuel).Careful (built socket platform detachable) RearmsInTime (fun _ _ => True) choices) :
    ((endpoint (κ := κ) config fuel).reached (built socket platform detachable) choices).Next ArmsTimer := by
  have hadheres : Adheres timing Timed (fun _ => True) (fun _ => True) (fun _ _ => True) _ :=
    adheres_of_follows (conduct config fuel) (fun op w k htimed hgood _ => ⟨True.intro, timed_applyOp op htimed hgood⟩)
      (fun action w k htimed _ => timed_act action htimed) timed_built
      (Follows.mono (follows_run config fuel fuel (.inl rfl)) (fun _ _ h => h) fun _ _ h => ⟨h, h⟩) h
  refine hadheres.next.mono fun op w hnext => ?_
  obtain ⟨k, htimed, hallowed⟩ := hnext
  exact armsTimer_of_timed htimed hallowed

end Runs

/-! ## A deadline that has passed -/

def dialledTwice (n : ℕ) : List (Choice Action) :=
  [.other (.connect 0 none false), .other (.pushDial 0), .other (.connect 0 none false), .other (.pushDial 1)] ++
    List.replicate n .own

/-- Two connections, the timer of the first of which has fired, with that answer whenever it is asked to handle so,
and which the second follows. -/
def overdue (answer : Except CoreError ExpiryOutcome) (n : ℕ) : InterleavedPrograms.Config (Op ScriptedConn) Error Unit ScriptedWorld :=
  (scripted {}).reached
    (built {} { conns := [{ expiries := List.replicate 9 (0, answer, []) }, { expiries := [(10, .ok .handled, [])] }] } false)
    (dialledTwice n)

/-- A poll that has not woken itself has returned without a timer, though a connection waits for one. -/
def leavesUnarmed (c : InterleavedPrograms.Config (Op ScriptedConn) Error Unit ScriptedWorld) : Bool :=
  match c.stage with
  | .running (.act .await _) => 0 < c.state.history.progress.passes && !c.state.history.progress.woken &&
    c.state.driver.sleepingUntil.isNone && c.state.driver.connections.toList.any fun (_, tracked) =>
      !(c.state.shareds tracked.shared).closed && (tracked.conn.bind Transport.expiry).isSome
  | _ => false

theorem not_next_of_leavesUnarmed {c : InterleavedPrograms.Config (Op ScriptedConn) Error Unit ScriptedWorld}
    (hunarmed : leavesUnarmed c = true) : ¬ c.Next ArmsTimer := by
  intro h
  obtain ⟨stage, w⟩ := c
  rcases stage with (_ | _ | _ | ⟨op, next⟩) | _ | _
  case running.act =>
    cases op
    case await =>
      simp only [leavesUnarmed] at hunarmed
      simp only [Bool.and_eq_true, decide_eq_true_eq, Bool.not_eq_true', Option.isNone_iff_eq_none, List.any_eq_true] at hunarmed
      obtain ⟨⟨⟨hpolled, hunwoken⟩, hnone⟩, ⟨i, tracked⟩, hentry, hopen, hexpiry⟩ := hunarmed
      obtain ⟨deadline, hexpiry⟩ := Option.isSome_iff_exists.mp hexpiry
      obtain ⟨conn, hconn, hexpiry⟩ := Option.bind_eq_some_iff.mp hexpiry
      have hexpires : Expires w deadline :=
        ⟨i, tracked, conn, Std.TreeMap.mem_toList_iff_getElem?_eq_some.mp hentry, hconn, hopen, hexpiry⟩
      obtain ⟨armed, harmed, -⟩ := h hpolled hunwoken deadline hexpires
      rw [hnone] at harmed
      cases harmed
    all_goals cases hunarmed
  all_goals cases hunarmed

/-- A connection that has failed on its deadline, and is kept with it, leaves another without a timer. -/
theorem overdue_unarmed : ¬ (overdue (.error ⟨.internal, false⟩) 155).Next ArmsTimer := by
  apply not_next_of_leavesUnarmed
  decide +kernel

/-- The timer is rearmed in the eighth pass of a poll. -/
def rearmsLast {β : Type} (op : Op ScriptedConn β) (w : ScriptedWorld) : Bool :=
  match op with
  | .rearm => w.history.progress.passes = 8
  | _ => false

/-- One that ends idle is marked, and the timer is armed for the other. -/
theorem armsTimer_reached_idle : (overdue (.ok .idleClose) 23).Next ArmsTimer := by
  refine armsTimer_reached ?_
  have hearly : (scripted {}).Careful (built {} { conns := [{ expiries := List.replicate 9 (0, .ok .idleClose, []) },
      { expiries := [(10, .ok .handled, [])] }] } false) (fun op w => rearmsLast op w = false) (fun _ _ => True)
      (dialledTwice 23) := by
    apply careful_of_carefulFrom
    decide +kernel
  refine hearly.mono (fun op w hearly => ?_) fun _ _ h => h
  cases op
  case rearm => exact fun hlast => absurd hlast.1 (of_decide_eq_false hearly)
  all_goals exact True.intro

end Ngnet.QuicTimers
