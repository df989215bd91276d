import Ngnet.QuicEvictions

/-!
# What becomes of a dial

A dial is queued by a handle, drained by the driver, and then tracked or told that it failed; a connection that
is tracked is removed only once its handle was told of its end, or its caller has it. When the driver is dropped,
it tells every connection, and then the dials that are still queued. A call that saw the endpoint running and
queues its dial behind that is never answered.
-/

namespace Ngnet.QuicDialling
open QmuxVarints InterleavedPrograms QuicEndpoint QuicEndpointDriver QuicEndpointSteps QuicConnectionTable
open QuicEndpointProtocols QuicEvictions QuicScriptedHost

variable {κ σ π : Type} {w w' : World κ σ π} {i j c d : ℕ} {tracked tracked' : Tracked κ} {s s' : Core κ}

/-! ## The progress of the driver -/

/-- How many of the dials that were drained are still to be dialled, or how far the driver has got with its end. -/
inductive Dialling
  | dialling (n : ℕ)
  | failed
  | torn

def nextDialling : {β : Type} → Dialling → Op κ β → β → Dialling
  | _, .dialling _, .drainDials, n => .dialling n
  | _, .dialling n, .dial, _ => .dialling (n - 1)
  | _, .dialling _, .failAll _, _ => .failed
  | _, .failed, .failDials _, _ => .torn
  | _, k, _, _ => k

def allowsDialling : {β : Type} → Dialling → Op κ β → Prop
  | _, .dialling n, .dial => 0 < n
  | _, .dialling _, .failDials _ | _, .dialling _, .markGone => False
  | _, .dialling n, _ => n = 0
  | _, .failed, .failAll _ | _, .failed, .failDials _ | _, .failed, .markGone | _, .torn, .markGone => True
  | _, _, _ => False

/-- The driver dials all that it has drained before it does anything else, and fails all its connections and then
its dials before it ends. -/
def dialling : Protocol (Op κ) Dialling where
  next := nextDialling
  allows := allowsDialling
  expects _ _ := True

def Clean (k : Dialling) : Prop := k = .dialling 0 ∨ k = .failed

theorem plain_dialling {β : Type} (op : Op κ β) (h : Routine op) : Plain (dialling (κ := κ)) (· = .dialling 0) op := by
  rintro k rfl
  cases op
  all_goals first
    | exact h.elim
    | exact ⟨rfl, fun _ => rfl⟩

theorem stop_dialling {α : Type} : Keeps (dialling (κ := κ)) (· = .dialling 0) Clean (stop : DriverM κ α) := by
  rintro k rfl
  exact ⟨rfl, fun _ _ => ⟨True.intro, fun _ _ => .inr rfl⟩⟩

theorem follows_dialAll (n : ℕ) :
    Follows (dialling (κ := κ)) (fun _ k => k = .dialling 0) (fun _ k => Clean k) (dialAll n : DriverM κ Unit) (.dialling n) := by
  induction n with
  | zero => rfl
  | succ n ih => exact ⟨Nat.succ_pos n, fun _ _ => ih⟩

theorem keeps_dialling (config : Config) (fuel n : ℕ) :
    Keeps (dialling (κ := κ)) (· = .dialling 0) Clean (run config fuel n : DriverM κ Unit) := by
  refine keeps_run plain_dialling stop_dialling ?_ ?_ ?_ (fun index => ?_) ?_ ?_ config ?_ fuel n
  · rintro k rfl
    exact ⟨rfl, fun _ => rfl⟩
  · rintro k rfl
    exact ⟨rfl, fun dials _ => follows_dialAll dials⟩
  · rintro k rfl
    exact ⟨rfl, fun _ => rfl⟩
  · refine keeps_applyCommands ?_ ?_
    all_goals
      rintro k rfl
      exact ⟨rfl, fun _ => rfl⟩
  · refine keeps_evict ?_ (fun index => ?_) fun index => ?_
    all_goals
      rintro k rfl
      exact ⟨rfl, fun _ => rfl⟩
  · rintro k rfl
    exact ⟨rfl, fun _ => rfl⟩
  · refine keeps_dispatch plain_dialling (fun _ _ => ?_) config
    rintro k rfl
    exact ⟨rfl, fun _ => rfl⟩

/-! ## What the driver owes -/

/-- The handle was told that the connection is established, or that it is not going to be. -/
def answered (shared : ConnectionShared) : Bool := shared.closed || shared.established

/-- Every connection that was asked for is still to be dialled, or tracked, or its handle was told. -/
structure Accounted (s : Core κ) : Prop where
  below : ∀ c ∈ s.dialled, c < s.created
  known : ∀ c ∈ s.dialled, c ∈ s.asked ∨ (∃ i tracked, s.tracked i = some tracked ∧ tracked.shared = c) ∨
    answered (s.shareds c) = true
  handed : ∀ i tracked, s.tracked i = some tracked → tracked.conn = none → (s.shareds tracked.shared).established = true

variable {shared : ConnectionShared}

theorem answered_of_established (h : shared.established = true) : answered shared = true := by
  simp [answered, h]

theorem answered_of_closed (h : shared.closed = true) : answered shared = true := by
  simp [answered, h]

variable {shared' : ConnectionShared}

theorem answered_mono (hclosed : shared.closed = true → shared'.closed = true)
    (hestablished : shared.established = true → shared'.established = true) (h : answered shared = true) :
    answered shared' = true := by
  rcases Bool.or_eq_true_iff.mp h with h | h
  · exact answered_of_closed (hclosed h)
  · exact answered_of_established (hestablished h)

/-- What is shared changes, and nothing that a handle was told is taken back. -/
structure Told (s s' : ConnectionShared) : Prop where
  closed : s.closed = true → s'.closed = true
  established : s.established = true → s'.established = true

theorem told_of_eq (hclosed : shared'.closed = shared.closed)
    (hestablished : shared'.established = shared.established) : Told shared shared' :=
  ⟨hclosed.trans, hestablished.trans⟩

theorem Told.answered (h : Told shared shared') :
    QuicDialling.answered shared = true → QuicDialling.answered shared' = true :=
  answered_mono h.closed h.established

theorem told_fail (shared : ConnectionShared) (error : Error) : Told shared (shared.fail error) := ⟨fun _ => rfl, id⟩

variable {f : ConnectionShared → ConnectionShared}

theorem told_modifyShared (hf : Told (s.shareds c) (f (s.shareds c))) (d : ℕ) :
    Told (s.shareds d) ((s.modifyShared c f).shareds d) := by
  by_cases hd : d = c
  · subst hd
    simpa [Core.modifyShared] using hf
  · rw [shareds_of_ne hd]
    exact ⟨id, id⟩

theorem Accounted.of_told (h : Accounted s) (htracked : s'.tracked = s.tracked) (hcreated : s'.created = s.created)
    (hdialled : s'.dialled = s.dialled) (hasked : ∀ c ∈ s.asked, c ∈ s'.asked ∨ answered (s'.shareds c) = true)
    (htold : ∀ c, Told (s.shareds c) (s'.shareds c)) : Accounted s' where
  below c hc := by
    rw [hdialled] at hc
    exact hcreated ▸ h.below c hc
  known c hc := by
    rw [hdialled] at hc
    rcases h.known c hc with hc | ⟨i, tracked, hi, hshared⟩ | hanswered
    · exact (hasked c hc).imp_right .inr
    · exact .inr (.inl ⟨i, tracked, htracked ▸ hi, hshared⟩)
    · exact .inr (.inr ((htold c).answered hanswered))
  handed i tracked hi hconn := by
    rw [htracked] at hi
    exact (htold _).established (h.handed i tracked hi hconn)

theorem Accounted.modifyShared (h : Accounted s)
    (hf : Told (s.shareds c) (f (s.shareds c))) : Accounted (s.modifyShared c f) :=
  h.of_told rfl rfl rfl (fun _ hc => .inl hc) (told_modifyShared hf)

theorem Accounted.setTracked (h : Accounted s) (htracked : s.tracked i = some tracked) (hshared : tracked'.shared = tracked.shared)
    (hhanded : tracked'.conn = none → (s.shareds tracked.shared).established = true) :
    Accounted (s.setTracked i (some tracked')) where
  below := h.below
  known c hc := by
    refine (h.known c hc).imp_right fun hknown => hknown.imp_left fun ⟨j, t, hj, ht⟩ => ?_
    by_cases hi : j = i
    · subst hi
      obtain rfl := Option.some.inj (hj.symm.trans htracked)
      exact ⟨j, tracked', by simp [Core.setTracked], hshared.trans ht⟩
    · exact ⟨j, t, by simpa [Core.setTracked, hi] using hj, ht⟩
  handed j t hj hconn := by
    rcases tracked_setTracked hj with ⟨-, heq⟩ | ⟨-, hj⟩
    · cases heq
      rw [hshared]
      exact hhanded hconn
    · exact h.handed j t hj hconn

section Steps
variable [Transport κ]

theorem Accounted.install (h : Accounted s) (hsound : Sound s) {dialing : List ℕ} (hasked : ∀ d ∈ s.dialing, d = c ∨ d ∈ dialing)
    (conn : κ) (remote : Address) : Accounted (({ s with dialing } : Core κ).install conn c remote) where
  below := h.below
  known d hd := by
    have hnew : (({ s with dialing } : Core κ).install conn c remote).tracked s.nextIndex =
        some { conn := some conn, shared := c, remote } := by
      simp [Core.install, Core.track, Core.report, Core.recordRoutes, Core.setTracked]
    rcases h.known d hd with hd | ⟨j, t, hj, ht⟩ | hanswered
    · simp only [Core.asked, List.mem_append] at hd
      rcases hd with (hd | hd) | hd
      · rcases hasked d hd with rfl | hd
        · exact .inr (.inl ⟨_, _, hnew, rfl⟩)
        · exact .inl (List.mem_append_left _ (List.mem_append_left _ hd))
      · exact .inl (List.mem_append_left _ (List.mem_append_right _ hd))
      · exact .inl (List.mem_append_right _ hd)
    · have hne : j ≠ s.nextIndex := (hsound.tracked j t hj).1.ne
      refine .inr (.inl ⟨j, t, ?_, ht⟩)
      simpa [Core.install, Core.track, Core.report, Core.recordRoutes, Core.setTracked, hne] using hj
    · exact .inr (.inr hanswered)
  handed j t hj hconn := by
    rcases tracked_setTracked hj with ⟨-, heq⟩ | ⟨-, hj⟩
    · cases heq
      cases hconn
    · exact h.handed j t hj hconn

omit [Transport κ] in
theorem Accounted.ask (h : Accounted s) (hsound : Sound s) (shared : ConnectionShared) : Accounted (s.ask shared) where
  below c hc := (h.below c hc).trans (Nat.lt_succ_self _)
  known c hc := by
    have hne : c ≠ s.created := (h.below c hc).ne
    simpa [Core.ask, Core.asked, Function.update_of_ne hne] using h.known c hc
  handed i tracked hi hconn := by
    have hne : tracked.shared ≠ s.created := (hsound.tracked i tracked hi).2.1.ne
    simpa [Core.ask, Function.update_of_ne hne] using h.handed i tracked hi hconn

/-- What has ended may be removed, and dials are drained where none is left of those that were. -/
def owing : May κ where
  removed s i := ∀ tracked, s.tracked i = some tracked → (s.shareds tracked.shared).closed = true ∨
    tracked.conn = none ∧ (s.shareds tracked.shared).terminal = true
  drained s := s.dialing = []

theorem Accounted.step (hsound : Sound s) (h : Accounted s) (hstep : Step owing s s') : Accounted s' := by
  cases hstep with
  | share c hf => exact h.modifyShared (told_of_eq hf.closed hf.established)
  | @call i tracked conn htracked hconn _ call =>
    have hset : Accounted (s.setTracked i (some { tracked with conn := some (Transport.call call conn).2.2 })) :=
      h.setTracked htracked rfl nofun
    have hnotes := handled_notes True (s.shareds tracked.shared) (Transport.call call conn).2.1
    have hcalled : Accounted ((s.setTracked i (some { tracked with conn := some (Transport.call call conn).2.2 })).modifyShared
        tracked.shared fun shared => (Transport.call call conn).2.1.foldl .note shared) :=
      hset.modifyShared (told_of_eq hnotes.closed hnotes.established)
    exact ⟨hcalled.below, hcalled.known, hcalled.handed⟩
  | @pend i tracked htracked pending => exact h.setTracked htracked rfl (h.handed i tracked htracked)
  | @finish i tracked htracked error =>
    have hset : Accounted (s.setTracked i (some { tracked with finished := true })) :=
      h.setTracked htracked rfl (h.handed i tracked htracked)
    exact hset.modifyShared (told_fail _ error)
  | fail htracked hover error => exact h.modifyShared (told_fail _ error)
  | failSilently hsilent error => exact h.modifyShared (told_fail _ error)
  | establish htracked => exact h.modifyShared ⟨id, fun _ => rfl⟩
  | @handOver i tracked conn htracked hconn hdetach hestablished hmay =>
    have hset : Accounted (s.setTracked i (some { tracked with conn := none })) :=
      h.setTracked htracked rfl fun _ => hestablished
    exact ⟨hset.below, hset.known, hset.handed⟩
  | ask hfresh => exact h.ask hsound _
  | @dial c dialing hdialing conn remote hmay =>
    refine h.install hsound (fun d hd => ?_) conn remote
    rw [hdialing] at hd
    exact List.mem_cons.mp hd
  | @undial c dialing hdialing error =>
    refine h.of_told rfl rfl rfl (fun d hd => ?_) (told_modifyShared (s := { s with dialing }) (told_fail _ error))
    simp only [Core.asked, hdialing, List.cons_append, List.mem_cons] at hd
    rcases hd with rfl | hd
    · exact .inr (answered_of_closed (by simp [Core.modifyShared, ConnectionShared.fail]))
    · exact .inl hd
  | @accept shared hfresh conn remote id hmay =>
    have hasked : Sound (s.ask shared) := hsound.ask shared
    have hinstall := (h.ask hsound shared).install (c := s.created) hasked (fun d hd => .inr hd) conn remote
    exact ⟨hinstall.below, hinstall.known, hinstall.handed⟩
  | @applyRoutes i tracked htracked hmay =>
    have hempty : Accounted (s.modifyShared tracked.shared ({ · with routes := [] })) := h.modifyShared ⟨id, id⟩
    exact ⟨hempty.below, hempty.known, hempty.handed⟩
  | remove i hended =>
    refine ⟨h.below, fun c hc => ?_, fun j t hj hconn => ?_⟩
    · refine (h.known c hc).imp_right fun hknown => ?_
      rcases hknown with ⟨j, t, hj, rfl⟩ | hanswered
      · by_cases hi : j = i
        · subst hi
          refine .inr ?_
          rcases hended t hj with hclosed | ⟨hconn, -⟩
          · exact answered_of_closed hclosed
          · exact answered_of_established (h.handed j t hj hconn)
        · exact .inl ⟨j, t, by simpa [Core.remove, Core.setTracked, hi] using hj, rfl⟩
      · exact .inr hanswered
    · rcases tracked_setTracked hj with ⟨-, heq⟩ | ⟨-, hj⟩
      · cases heq
      · exact h.handed j t hj hconn
  | drain hempty =>
    have hempty : s.dialing = [] := hempty
    refine h.of_told rfl rfl rfl (fun c hc => .inl ?_) fun _ => ⟨id, id⟩
    simpa [Core.asked, hempty] using hc
  | failDials error =>
    refine h.of_told rfl rfl rfl (fun c hc => ?_) fun c => ?_
    · by_cases hdials : c ∈ s.dials
      · exact .inr (answered_of_closed (by simp [hdials, ConnectionShared.fail]))
      · simp only [Core.asked, List.mem_append, hdials, or_false] at hc
        exact .inl (by simpa [Core.asked] using hc)
    · dsimp only
      split
      · exact told_fail _ error
      · exact ⟨id, id⟩
  | markGone => exact ⟨h.below, h.known, h.handed⟩
  | complete hmay sent => exact ⟨h.below, h.known, h.handed⟩
  | advance hmay progress => exact ⟨h.below, h.known, h.handed⟩

theorem Accounted.takes (hsound : Sound (core w)) (h : Accounted (core w)) (htakes : Takes owing w w') :
    Accounted (core w') := by
  have hboth := htakes.invariant (I := fun s => Sound s ∧ Accounted s)
    (fun ⟨hsound, h⟩ hstep => ⟨hsound.step hstep, h.step hsound hstep⟩) ⟨hsound, h⟩
  exact hboth.2

end Steps

theorem accounted_act (action : Action) (hsound : Sound (core w)) (h : Accounted (core w)) :
    Accounted (core (w.act action)) := by
  have hact : HandleStep (fun _ => True) w (w.act action) := handleStep_act action fun _ _ => True.intro
  obtain ⟨more, hasked, -, hmore⟩ := hact.asked
  rw [← asked_core, ← asked_core] at hasked
  have htold : ∀ c < w.created, Told (w.shareds c) ((w.act action).shareds c) :=
    fun c hc => told_of_eq (hact.shareds c hc).closed (hact.shareds c hc).established
  have htracked : (core (w.act action)).tracked = (core w).tracked := by
    simp only [core, hact.driver]
  refine ⟨fun c hc => ?_, fun c hc => ?_, fun i tracked hi hconn => ?_⟩
  · rcases hact.dialled c hc with hc | ⟨hlt, -⟩
    · exact (h.below c hc).trans_le hact.created
    · exact hlt
  · rcases hact.dialled c hc with hc | ⟨-, hc | hclosed⟩
    · rw [htracked]
      rcases h.known c hc with hknown | hknown | hanswered
      · exact .inl (hasked.mem_iff.mpr (List.mem_append_left _ hknown))
      · exact .inr (.inl hknown)
      · exact .inr (.inr ((htold c (h.below c hc)).answered hanswered))
    · exact .inl (asked_core (w.act action) ▸ hc)
    · exact .inr (.inr (answered_of_closed hclosed))
  · rw [htracked] at hi
    exact (htold _ (hsound.tracked i tracked hi).2.1).established (h.handed i tracked hi hconn)

/-! ## The end of the driver -/

/-- Every connection that is tracked was told of its end. -/
def AllClosed (w : World κ σ π) : Prop := ∀ (i : ℕ) (tracked : Tracked κ), w.driver.connections[i]? = some tracked →
  (w.shareds tracked.shared).closed = true

theorem closed_modifyShared (hf : Told (w.shareds c) (f (w.shareds c)))
    (h : (w.shareds d).closed = true) : ((w.modifyShared c f).shareds d).closed = true :=
  (told_modifyShared (s := core w) hf d).closed h

theorem failEach_cases {α : Type} (entries : List α) (shared : α → ℕ) (error : Error) (w : World κ σ π) :
    let w' := entries.foldl (fun w entry => w.modifyShared (shared entry) (·.fail error)) w
    w'.driver = w.driver ∧ w'.endpoint = w.endpoint ∧ (∀ d, (w.shareds d).closed = true → (w'.shareds d).closed = true) ∧
      ∀ entry ∈ entries, (w'.shareds (shared entry)).closed = true := by
  induction entries generalizing w with
  | nil => exact ⟨rfl, rfl, fun _ => id, nofun⟩
  | cons entry entries ih =>
    obtain ⟨hdriver, hendpoint, hkept, hclosed⟩ := ih (w.modifyShared (shared entry) (·.fail error))
    refine ⟨hdriver, hendpoint, fun d hd => hkept d (closed_modifyShared (told_fail _ error) hd), fun entry' hentry => ?_⟩
    rcases List.mem_cons.mp hentry with rfl | hentry
    · exact hkept _ (by simp [World.modifyShared, ConnectionShared.fail])
    · exact hclosed entry' hentry

theorem driver_failAll (w : World κ σ π) (error : Error) : (w.failAll error).driver = w.driver :=
  (failEach_cases w.driver.connections.toList (·.2.shared) error w).1

theorem allClosed_failAll (w : World κ σ π) (error : Error) : AllClosed (w.failAll error) := by
  intro i tracked htracked
  rw [driver_failAll] at htracked
  have hmem := Std.TreeMap.mem_toList_iff_getElem?_eq_some.mpr htracked
  exact (failEach_cases w.driver.connections.toList (·.2.shared) error w).2.2.2 (i, tracked) hmem

theorem failDials_cases (w : World κ σ π) (error : Error) : (w.failDials error).driver = w.driver ∧
    (w.failDials error).endpoint.dials = [] ∧
      ∀ d, (w.shareds d).closed = true → ((w.failDials error).shareds d).closed = true := by
  obtain ⟨hdriver, hendpoint, hkept, -⟩ := failEach_cases w.endpoint.dials (·.shared) error
    { w with endpoint := { w.endpoint with dials := [] } }
  exact ⟨hdriver, congrArg EndpointShared.dials hendpoint, hkept⟩

/-- Where the driver stands. -/
def Stands (w : World κ σ π) : Dialling → Prop
  | .dialling n => w.driver.dialing.length = n
  | .failed => w.driver.dialing = [] ∧ AllClosed w
  | .torn => w.driver.dialing = [] ∧ AllClosed w ∧ w.endpoint.dials = [] ∧ w.history.progress.drained = true

section Runs
variable [Transport κ] [Socket σ] [Platform π κ] {config : Config} {fuel : ℕ} {socket : σ} {platform : π}
  {detachable : Bool} {choices : List (Choice Action)}

omit [Socket σ] [Platform π κ] in
theorem dialing_step (hstep : Step { drained := fun _ => False } s s') : s'.dialing <:+ s.dialing := by
  cases hstep with
  | dial h conn remote hmay => exact h ▸ List.suffix_cons _ _
  | undial h error => exact h ▸ List.suffix_cons _ _
  | drain h => exact h.elim
  | _ => exact List.suffix_rfl

variable {β : Type}

theorem dialing_nil (op : Op κ β) (hop : drains op = false) (h : w.driver.dialing = []) :
    (w.applyOp op).2.driver.dialing = [] := by
  have hall := permits_all op w
  have htakes : Takes { drained := fun _ => False } w (w.applyOp op).2 :=
    takes_applyOp op { hall with drained := fun hdrains => absurd hdrains (by simp [hop]) }
  have hsuffix : (core (w.applyOp op).2).dialing <:+ (core w).dialing := by
    refine htakes.invariant (I := fun s => s.dialing <:+ (core w).dialing) (fun hsuffix hstep => ?_) List.suffix_rfl
    exact (dialing_step hstep).trans hsuffix
  rw [show (core w).dialing = [] by simp [core, h], List.suffix_nil] at hsuffix
  exact List.map_eq_nil_iff.mp hsuffix

omit [Socket σ] in
theorem dialing_dial (w : World κ σ π) : w.dial.driver.dialing = w.driver.dialing.tail := by
  rw [World.dial]
  split
  · rename_i h
    simp [h]
  rename_i dial dialing h
  dsimp only
  split
  all_goals simp [h, World.install, World.report, World.recordRoutes, World.onHistory, World.onDriver, World.modifyShared]

variable {k : Dialling}

theorem stands_applyOp (op : Op κ β) (h : Stands w k) (hallowed : allowsDialling k op) :
    Stands (w.applyOp op).2 (nextDialling k op (w.applyOp op).1) := by
  cases k with
  | dialling n =>
    cases op
    case drainDials => rfl
    case dial =>
      have hlength : w.driver.dialing.length = n := h
      show w.dial.driver.dialing.length = n - 1
      rw [dialing_dial, List.length_tail, hlength]
    case failAll error =>
      have hn : n = 0 := hallowed
      have hdialing : w.driver.dialing = [] := List.length_eq_zero_iff.mp (Eq.trans h hn)
      exact ⟨(congrArg Inner.dialing (driver_failAll w error)).trans hdialing, allClosed_failAll w error⟩
    case failDials => exact hallowed.elim
    case markGone => exact hallowed.elim
    all_goals
      have hn : n = 0 := hallowed
      subst hn
      exact List.length_eq_zero_iff.mpr (dialing_nil _ rfl (List.length_eq_zero_iff.mp h))
  | failed =>
    obtain ⟨hdialing, hclosed⟩ := h
    cases op
    case failAll error =>
      exact ⟨(congrArg Inner.dialing (driver_failAll w error)).trans hdialing, allClosed_failAll w error⟩
    case failDials error =>
      obtain ⟨hdriver, hdials, hkept⟩ := failDials_cases w error
      refine ⟨(congrArg Inner.dialing hdriver).trans hdialing, fun i tracked htracked => ?_, hdials, rfl⟩
      have hold : w.driver.connections[i]? = some tracked := hdriver ▸ htracked
      exact hkept _ (hclosed i tracked hold)
    case markGone => exact ⟨hdialing, hclosed⟩
    all_goals exact hallowed.elim
  | torn =>
    cases op
    case markGone => exact h
    all_goals exact hallowed.elim

/-- The call is about to queue its dial, and the driver has drained the dials for the last time. -/
def queuesLate (w : World κ σ π) : Action → Bool
  | .pushDial c => w.history.progress.drained && w.connecting.any (·.shared = c)
  | _ => false

/-- No call queues its dial behind that. -/
def InTime (action : Action) (w : World κ σ π) : Prop := queuesLate w action = false

instance (action : Action) (w : World κ σ π) : Decidable (InTime action w) := inferInstanceAs (Decidable (_ = false))

omit [Transport κ] [Socket σ] [Platform π κ] in
theorem dials_act (action : Action) (hdrained : w.history.progress.drained = true) (hintime : InTime action w) :
    (w.act action).endpoint.dials = w.endpoint.dials := by
  cases action
  case pushDial c =>
    have hlate : w.connecting.any (·.shared = c) = false := by
      simpa [InTime, queuesLate, hdrained] using hintime
    have hnone : w.connecting.find? (·.shared = c) = none := by
      simpa [List.find?_eq_none] using hlate
    rw [World.act, World.pushDial, hnone]
  all_goals
    simp only [World.act, World.connect, World.command, World.commandIfOpen, World.write, World.pushWrite, World.read,
      World.acceptStream, World.dropHandle, World.collect, World.giveUp, World.abandon, World.markAbandoned, World.note,
      World.own, World.send, World.sendClose]
    repeat' split
  all_goals rfl

omit [Transport κ] [Socket σ] [Platform π κ] in
theorem stands_act (action : Action) (hsound : Sound (core w)) (h : Stands w k) (hintime : InTime action w) :
    Stands (w.act action) k := by
  have hact : HandleStep (fun _ => True) w (w.act action) := handleStep_act action fun _ _ => True.intro
  have hdialing : (w.act action).driver.dialing = w.driver.dialing := congrArg Inner.dialing hact.driver
  have hall : AllClosed w → AllClosed (w.act action) := by
    intro hclosed i tracked htracked
    rw [hact.driver] at htracked
    exact (hact.shareds _ (hsound.tracked i tracked htracked).2.1).closed.trans (hclosed i tracked htracked)
  cases k with
  | dialling n => exact (congrArg List.length hdialing).trans h
  | failed => exact ⟨hdialing.trans h.1, hall h.2⟩
  | torn =>
    obtain ⟨hempty, hclosed, hdials, hdrained⟩ := h
    have hprogress := congrArg Progress.drained hact.progress
    exact ⟨hdialing.trans hempty, hall hclosed, (dials_act action hdrained hintime).trans hdials, hprogress.trans hdrained⟩

theorem conduct (config : Config) (fuel : ℕ) :
    Conduct (endpoint (κ := κ) (σ := σ) (π := π) config fuel) (dialling (κ := κ)) Clean (· = .torn) where
  cleanup k hk := by
    rcases hk with rfl | rfl
    · exact ⟨rfl, fun _ _ => ⟨True.intro, fun _ _ => ⟨True.intro, fun _ _ => rfl⟩⟩⟩
    · exact ⟨True.intro, fun _ _ => ⟨True.intro, fun _ _ => ⟨True.intro, fun _ _ => rfl⟩⟩⟩
  yields op k hyields hallowed := by
    cases op
    case await =>
      cases k with
      | dialling n => exact .inl (congrArg _ hallowed)
      | _ => exact hallowed.elim
    all_goals cases hyields

theorem accounted_applyOp (op : Op κ β) (hsound : Sound (core w)) (hended : RemovesEnded op w)
    (hstands : Stands w k) (hallowed : allowsDialling k op) (h : Accounted (core w)) : Accounted (core (w.applyOp op).2) := by
  have hall := permits_all op w
  refine h.takes hsound (takes_applyOp op { hall with removed := hended, drained := fun hdrains => ?_ })
  cases op
  case drainDials =>
    cases k with
    | dialling n =>
      have hdialing : w.driver.dialing = [] := List.length_eq_zero_iff.mp (Eq.trans hstands hallowed)
      exact List.map_eq_nil_iff.mpr hdialing
    | _ => exact hallowed.elim
  all_goals cases hdrains

/-- Whoever asked for a connection and has queued the dial was told what became of it. -/
def DialsAnswered (w : World κ σ π) : Prop :=
  ∀ c ∈ w.history.dialled, c ∉ w.connecting.map (·.shared) → answered (w.shareds c) = true

instance (w : World κ σ π) : Decidable (DialsAnswered w) := List.decidableBAll _ _

omit [Transport κ] [Socket σ] [Platform π κ] in
theorem dialsAnswered_of_torn (h : Accounted (core w)) (hstands : Stands w .torn) : DialsAnswered w := by
  obtain ⟨hdialing, hclosed, hdials, -⟩ := hstands
  intro c hc hconnecting
  rcases h.known c hc with hasked | ⟨i, tracked, hi, rfl⟩ | hanswered
  · rw [asked_core, World.asked, hdialing, hdials] at hasked
    exact (hconnecting hasked).elim
  · exact answered_of_closed (hclosed i tracked hi)
  · exact hanswered

/-- In every run in which no call queues its dial when the driver has drained the dials for the last time, every
dial is answered once the driver was dropped. -/
theorem dialsAnswered_reached
    (h : (endpoint (κ := κ) config fuel).Careful (built socket platform detachable) (fun _ _ => True) InTime choices) :
    ((endpoint (κ := κ) config fuel).reached (built socket platform detachable) choices).stage.isOver = true →
      DialsAnswered ((endpoint (κ := κ) config fuel).reached (built socket platform detachable) choices).state := by
  have hprogram : Follows (dialling (κ := κ)) (fun _ k => Clean k) (fun _ k => True ∧ Clean k)
      (run config fuel fuel : DriverM κ Unit) (.dialling 0) :=
    Follows.mono (keeps_dialling config fuel fuel (.dialling 0) rfl) (fun _ _ hk => .inl hk) fun _ _ hk => ⟨True.intro, hk⟩
  have hended := careful_ended h
  have hinit : Stands (built socket platform detachable : World κ σ π) (.dialling 0) := rfl
  have hfollows := careful_follows Stands (conduct config fuel) hinit hprogram
    (fun op w k hstands _ hallowed => ⟨True.intro, stands_applyOp op hstands hallowed⟩)
    (fun action w k hstands hfair => stands_act action hfair.2 hstands hfair.1) hended
  have haccounted := state_invariant (I := fun w => Accounted (core w)) (by constructor <;> simp [core, built])
    (fun op w hI ⟨⟨_, hsound, hended⟩, k, hstands, hallowed⟩ => accounted_applyOp op hsound hended hstands hallowed hI)
    (fun action w hI hfair => accounted_act action hfair.2 hI) hfollows
  have hadheres : Adheres dialling Stands Clean (· = .torn) (fun _ _ => True) _ := adheres_of_follows (conduct config fuel)
    (fun op w k hstands _ hallowed => ⟨True.intro, stands_applyOp op hstands hallowed⟩)
    (fun action w k hstands hfair => stands_act action hfair.2 hstands hfair.1) hinit hprogram hended
  intro hover
  obtain ⟨k, hstands, hk⟩ := hadheres
  generalize (endpoint (κ := κ) config fuel).reached (built socket platform detachable) choices = c at *
  obtain ⟨stage, w⟩ := c
  cases stage with
  | «over» outcome =>
    obtain rfl : k = .torn := hk
    exact dialsAnswered_of_torn haccounted hstands
  | running p => cases hover
  | cleaning outcome p => cases hover

end Runs

/-! ## A call that is overtaken -/

/-- A driver is dropped while a call has seen it running; the call queues its dial before, behind or between. -/
def dropped (before between : List (Choice Action)) :
    InterleavedPrograms.Config (Op ScriptedConn) Error Unit ScriptedWorld :=
  (scripted {}).reached (built {} {} false)
    ([.other (.connect 0 none false)] ++ before ++ [.abandon, .own, .own] ++ between ++ [.own, .own])

/-- It queues its dial when the dials were drained, and is not answered. -/
theorem dial_lost : ¬ ((dropped [] [.other (.pushDial 0)]).stage.isOver = true →
    DialsAnswered (dropped [] [.other (.pushDial 0)]).state) := by
  decide +kernel

/-- It queues its dial before that, and is. -/
theorem dialsAnswered_reached_intime : (dropped [.other (.pushDial 0)] []).stage.isOver = true ∧
    DialsAnswered (dropped [.other (.pushDial 0)] []).state := by
  refine ⟨by decide +kernel, dialsAnswered_reached ?_ (by decide +kernel)⟩
  apply careful_of_carefulFrom
  decide +kernel

end Ngnet.QuicDialling
