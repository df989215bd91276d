import Ngnet.QuicEndpointSteps
import Ngnet.QuicHandleSteps

/-!
# The table of connections

What holds of the connections that an endpoint tracks in every state of every run: each has an index and a
mailbox of its own, no connection is tracked that is still to be dialled, and every route leads to a
connection that is tracked.
-/

namespace Ngnet.QuicConnectionTable
open QmuxVarints InterleavedPrograms QuicEndpoint QuicEndpointDriver QuicEndpointSteps

variable {κ σ π : Type} {s s' : Core κ} {w w' : World κ σ π} {i j c : ℕ} {tracked tracked' : Tracked κ} {may : May κ}

structure Sound (s : Core κ) : Prop where
  tracked : ∀ i tracked, s.tracked i = some tracked →
    i < s.nextIndex ∧ tracked.shared < s.created ∧ tracked.shared ∉ s.asked
  once : ∀ i j tracked tracked', s.tracked i = some tracked → s.tracked j = some tracked' →
    tracked.shared = tracked'.shared → i = j
  nodup : s.asked.Nodup
  below : ∀ c ∈ s.asked, c < s.created
  routed : ∀ route ∈ s.routes, (s.tracked route.2).isSome = true

/-! ## Entries -/

theorem tracked_setTracked {entry : Option (Tracked κ)} (h : (s.setTracked i entry).tracked j = some tracked) :
    (j = i ∧ entry = some tracked) ∨ (j ≠ i ∧ s.tracked j = some tracked) := by
  by_cases hj : j = i
  · subst hj
    exact .inl ⟨rfl, by simpa [Core.setTracked] using h⟩
  · exact .inr ⟨hj, by simpa [Core.setTracked, hj] using h⟩

theorem isSome_setTracked (h : (s.tracked j).isSome = true) (tracked : Tracked κ) :
    ((s.setTracked i (some tracked)).tracked j).isSome = true := by
  by_cases hj : j = i
  · simp [Core.setTracked, hj]
  · simpa [Core.setTracked, hj] using h

theorem Sound.setTracked (h : Sound s) (htracked : s.tracked i = some tracked) (hshared : tracked'.shared = tracked.shared) :
    Sound (s.setTracked i (some tracked')) := by
  -- An entry of the new table stands for one of the old, with the same mailbox.
  have hold : ∀ j t, (s.setTracked i (some tracked')).tracked j = some t → ∃ t', s.tracked j = some t' ∧ t'.shared = t.shared := by
    intro j t hj
    rcases tracked_setTracked hj with ⟨rfl, heq⟩ | ⟨-, hj⟩
    · cases heq
      exact ⟨tracked, htracked, hshared.symm⟩
    · exact ⟨t, hj, rfl⟩
  refine ⟨fun j t hj => ?_, fun j k t t' hj hk heq => ?_, h.nodup, h.below, fun route hroute => ?_⟩
  · obtain ⟨t', ht', hshared⟩ := hold j t hj
    exact hshared ▸ h.tracked j t' ht'
  · obtain ⟨u, hu, hshared⟩ := hold j t hj
    obtain ⟨u', hu', hshared'⟩ := hold k t' hk
    exact h.once j k u u' hu hu' (hshared.trans (heq.trans hshared'.symm))
  · exact isSome_setTracked (h.routed route hroute) _

/-! ## Routes -/

theorem mem_applyRoute {route : Bytes × ℕ} {routes : List (Bytes × ℕ)} {update : RouteUpdate}
    (h : route ∈ World.applyRoute i routes update) : route ∈ routes ∨ route.2 = i := by
  cases update with
  | minted cid =>
    rcases List.mem_cons.mp h with rfl | h
    · exact .inr rfl
    · exact .inl (List.mem_of_mem_filter h)
  | retired cid => exact .inl (List.mem_of_mem_filter h)

theorem mem_applyRoutes {route : Bytes × ℕ} {routes : List (Bytes × ℕ)} {updates : List RouteUpdate}
    (h : route ∈ updates.foldl (World.applyRoute i) routes) : route ∈ routes ∨ route.2 = i := by
  induction updates generalizing routes with
  | nil => exact .inl h
  | cons update updates ih =>
    rcases ih h with h | h
    · exact mem_applyRoute h
    · exact .inr h

theorem Sound.report (h : Sound s) (htracked : (s.tracked i).isSome = true) (updates : List RouteUpdate) :
    Sound (s.report i updates) := by
  refine ⟨h.tracked, h.once, h.nodup, h.below, fun route hroute => ?_⟩
  rcases mem_applyRoutes hroute with hroute | htarget
  · exact h.routed route hroute
  · rw [htarget]
    exact htracked

theorem Sound.recordChosen (h : Sound s) (c : ℕ) (cid : Bytes) : Sound (s.recordChosen c cid) :=
  ⟨h.tracked, h.once, h.nodup, h.below, h.routed⟩

theorem Sound.recordRoutes (h : Sound s) (c : ℕ) (updates : List RouteUpdate) : Sound (s.recordRoutes c updates) :=
  ⟨h.tracked, h.once, h.nodup, h.below, h.routed⟩

/-! ## Steps -/

variable [Transport κ]

omit [Transport κ] in
theorem Sound.track (h : Sound s) (hbelow : tracked.shared < s.created) (hasked : tracked.shared ∉ s.asked)
    (hfresh : ∀ i tracked', s.tracked i = some tracked' → tracked'.shared ≠ tracked.shared) :
    Sound (s.track tracked) := by
  refine ⟨fun j t hj => ?_, fun j k t t' hj hk heq => ?_, h.nodup, h.below, fun route hroute => ?_⟩
  · rcases tracked_setTracked hj with ⟨rfl, heq⟩ | ⟨-, hj⟩
    · cases heq
      exact ⟨Nat.lt_succ_self _, hbelow, hasked⟩
    · obtain ⟨hlt, hrest⟩ := h.tracked j t hj
      exact ⟨hlt.trans (Nat.lt_succ_self _), hrest⟩
  · rcases tracked_setTracked hj with ⟨rfl, heq'⟩ | ⟨-, hj⟩
    · rcases tracked_setTracked hk with ⟨rfl, -⟩ | ⟨-, hk⟩
      · rfl
      · cases heq'
        exact (hfresh k t' hk heq.symm).elim
    · rcases tracked_setTracked hk with ⟨rfl, heq'⟩ | ⟨-, hk⟩
      · cases heq'
        exact (hfresh j t hj heq).elim
      · exact h.once j k t t' hj hk heq
  · exact isSome_setTracked (h.routed route hroute) _

theorem Sound.install (h : Sound s) (hbelow : c < s.created) (hasked : c ∉ s.asked)
    (hfresh : ∀ i tracked, s.tracked i = some tracked → tracked.shared ≠ c) (conn : κ) (remote : Address) :
    Sound (s.install conn c remote) := by
  have htracked : Sound (s.track { conn := some conn, shared := c, remote }) := h.track hbelow hasked hfresh
  exact (htracked.recordRoutes c _).report (by simp [Core.recordRoutes, Core.track, Core.setTracked]) _

omit [Transport κ] in
theorem Sound.ask (h : Sound s) (shared : ConnectionShared) : Sound (s.ask shared) where
  tracked i tracked hi := by
    obtain ⟨hlt, hbelow, hasked⟩ := h.tracked i tracked hi
    exact ⟨hlt, hbelow.trans (Nat.lt_succ_self _), hasked⟩
  once := h.once
  nodup := h.nodup
  below c hc := (h.below c hc).trans (Nat.lt_succ_self _)
  routed := h.routed

omit [Transport κ] in
theorem Sound.dialled (h : Sound s) {dialing dials : List ℕ} (hsub : (dialing ++ dials).Sublist (s.dialing ++ s.dials)) :
    Sound { s with dialing, dials } := by
  have hasked : (dialing ++ dials ++ s.connecting).Sublist s.asked := hsub.append_right s.connecting
  refine ⟨fun i tracked hi => ?_, h.once, h.nodup.sublist hasked, fun c hc => h.below c (hasked.subset hc), h.routed⟩
  obtain ⟨hlt, hbelow, hnot⟩ := h.tracked i tracked hi
  exact ⟨hlt, hbelow, fun hc => hnot (hasked.subset hc)⟩

theorem Sound.step (h : Sound s) (hstep : Step may s s') : Sound s' := by
  cases hstep with
  | share c hf => exact ⟨h.tracked, h.once, h.nodup, h.below, h.routed⟩
  | @call i tracked conn htracked hconn _ call =>
    have hset : Sound (s.setTracked i (some { tracked with conn := some (Transport.call call conn).2.2 })) :=
      h.setTracked htracked rfl
    exact ⟨hset.tracked, hset.once, hset.nodup, hset.below, hset.routed⟩
  | pend htracked pending => exact h.setTracked htracked rfl
  | @finish i tracked htracked error =>
    have hset : Sound (s.setTracked i (some { tracked with finished := true })) := h.setTracked htracked rfl
    exact ⟨hset.tracked, hset.once, hset.nodup, hset.below, hset.routed⟩
  | fail htracked hover error => exact ⟨h.tracked, h.once, h.nodup, h.below, h.routed⟩
  | failSilently hsilent error => exact ⟨h.tracked, h.once, h.nodup, h.below, h.routed⟩
  | establish htracked => exact ⟨h.tracked, h.once, h.nodup, h.below, h.routed⟩
  | @handOver i tracked conn htracked hconn hdetach hestablished hmay =>
    have hset : Sound (s.setTracked i (some { tracked with conn := none })) := h.setTracked htracked rfl
    exact ⟨hset.tracked, hset.once, hset.nodup, hset.below, hset.routed⟩
  | ask hfresh => exact h.ask _
  | @dial c dialing hdialing conn remote hmay =>
    have hcons : c :: (dialing ++ s.dials ++ s.connecting) = s.asked := by
      simp [Core.asked, hdialing]
    have hmem : c ∈ s.asked := hcons ▸ List.mem_cons_self
    have hnodup := h.nodup
    rw [← hcons, List.nodup_cons] at hnodup
    have hdialled : Sound { s with dialing } := h.dialled (by simp [hdialing])
    exact hdialled.install (h.below c hmem) hnodup.1 (fun i tracked hi heq => (h.tracked i tracked hi).2.2 (heq ▸ hmem)) conn remote
  | @undial c dialing hdialing error =>
    have hdialled : Sound { s with dialing } := h.dialled (by simp [hdialing])
    exact ⟨hdialled.tracked, hdialled.once, hdialled.nodup, hdialled.below, hdialled.routed⟩
  | accept hfresh conn remote hmay =>
    have hasked := h.ask ‹_›
    refine ((hasked.install (Nat.lt_succ_self _) ?_ ?_ conn remote).recordChosen _ _).report ?_ _
    · exact fun hc => Nat.lt_irrefl _ (h.below _ hc)
    · exact fun i tracked hi heq => (h.tracked i tracked hi).2.1.ne heq
    · simp [Core.recordChosen, Core.install, Core.track, Core.report, Core.recordRoutes, Core.setTracked, Core.ask]
  | @applyRoutes i tracked htracked hmay =>
    have hreport := h.report (Option.isSome_iff_exists.mpr ⟨tracked, htracked⟩) (s.shareds tracked.shared).routes
    exact ⟨hreport.tracked, hreport.once, hreport.nodup, hreport.below, hreport.routed⟩
  | remove i hmay =>
    have hold : ∀ j t, (s.remove i).tracked j = some t → s.tracked j = some t := by
      intro j t hj
      rcases tracked_setTracked hj with ⟨-, heq⟩ | ⟨-, hj⟩
      · cases heq
      · exact hj
    refine ⟨fun j t hj => h.tracked j t (hold j t hj), fun j k t t' hj hk heq => ?_, h.nodup, h.below, fun route hroute => ?_⟩
    · exact h.once j k t t' (hold j t hj) (hold k t' hk) heq
    · obtain ⟨hroute, htarget⟩ := List.mem_filter.mp hroute
      have hne : route.2 ≠ i := of_decide_eq_true htarget
      simpa [Core.remove, Core.setTracked, hne] using h.routed route hroute
  | drain hmay =>
    exact h.dialled (by simp)
  | failDials error =>
    have hdialled : Sound { s with dials := [] } := h.dialled (by simp)
    exact ⟨hdialled.tracked, hdialled.once, hdialled.nodup, hdialled.below, hdialled.routed⟩
  | markGone => exact ⟨h.tracked, h.once, h.nodup, h.below, h.routed⟩
  | complete hmay sent => exact ⟨h.tracked, h.once, h.nodup, h.below, h.routed⟩
  | advance hmay progress => exact ⟨h.tracked, h.once, h.nodup, h.below, h.routed⟩

theorem Sound.takes (h : Sound (core w)) (htakes : Takes may w w') : Sound (core w') :=
  htakes.invariant Sound.step h

/-! ## Entries over time -/

/-- An entry of the later table is one of the earlier, of the same connection, or it has a new index, and its
connection is one of those that were to be dialled, or a new one. -/
structure Grows (dialled : ℕ → Prop) (s s' : Core κ) : Prop where
  created : s.created ≤ s'.created
  nextIndex : s.nextIndex ≤ s'.nextIndex
  entries : ∀ i tracked', s'.tracked i = some tracked' → (∃ tracked, s.tracked i = some tracked ∧ tracked.shared = tracked'.shared) ∨
    s.nextIndex ≤ i ∧ (dialled tracked'.shared ∨ s.created ≤ tracked'.shared)

variable {dialled : ℕ → Prop}

section
omit [Transport κ]

theorem Grows.trans {s'' : Core κ} (h : Grows dialled s s') (h' : Grows dialled s' s'') :
    Grows dialled s s'' where
  created := h.created.trans h'.created
  nextIndex := h.nextIndex.trans h'.nextIndex
  entries i tracked'' hi := by
    rcases h'.entries i tracked'' hi with ⟨tracked', hi', heq⟩ | ⟨hle, hnew⟩
    · rw [← heq]
      exact h.entries i tracked' hi'
    · exact .inr ⟨h.nextIndex.trans hle, hnew.imp_right h.created.trans⟩

theorem Grows.mono {dialled' : ℕ → Prop} (h : Grows dialled s s') (hdialled : ∀ c, dialled c → dialled' c) :
    Grows dialled' s s' :=
  ⟨h.created, h.nextIndex, fun i tracked' hi => (h.entries i tracked' hi).imp_right fun ⟨hle, hnew⟩ =>
    ⟨hle, hnew.imp_left (hdialled _)⟩⟩

theorem grows_of_eq (htracked : s'.tracked = s.tracked) (hcreated : s'.created = s.created)
    (hnext : s'.nextIndex = s.nextIndex) : Grows dialled s s' :=
  ⟨hcreated.ge, hnext.ge, fun _ tracked' hi => .inl ⟨tracked', htracked ▸ hi, rfl⟩⟩

theorem grows_setTracked (htracked : s.tracked i = some tracked) (hshared : tracked'.shared = tracked.shared) :
    Grows dialled s (s.setTracked i (some tracked')) := by
  refine ⟨le_rfl, le_rfl, fun j t hj => ?_⟩
  rcases tracked_setTracked hj with ⟨rfl, heq⟩ | ⟨-, hj⟩
  · cases heq
    exact .inl ⟨tracked, htracked, hshared.symm⟩
  · exact .inl ⟨t, hj, rfl⟩

end

theorem grows_install (hc : dialled c ∨ s.created ≤ c) (conn : κ) (remote : Address) :
    Grows dialled s (s.install conn c remote) := by
  refine ⟨le_rfl, Nat.le_succ _, fun j t hj => ?_⟩
  rcases tracked_setTracked hj with ⟨rfl, heq⟩ | ⟨-, hj⟩
  · cases heq
    exact .inr ⟨le_rfl, hc⟩
  · exact .inl ⟨t, hj, rfl⟩

theorem grows_step (hstep : Step { dialled := fun _ => dialled } s s') : Grows dialled s s' := by
  cases hstep with
  | @call i tracked conn htracked hconn _ call =>
    have hset : Grows dialled s (s.setTracked i (some { tracked with conn := some (Transport.call call conn).2.2 })) :=
      grows_setTracked htracked rfl
    exact ⟨hset.created, hset.nextIndex, hset.entries⟩
  | pend htracked pending => exact grows_setTracked htracked rfl
  | @finish i tracked htracked error =>
    have hset : Grows dialled s (s.setTracked i (some { tracked with finished := true })) := grows_setTracked htracked rfl
    exact ⟨hset.created, hset.nextIndex, hset.entries⟩
  | @handOver i tracked conn htracked hconn hdetach hestablished hmay =>
    have hset : Grows dialled s (s.setTracked i (some { tracked with conn := none })) := grows_setTracked htracked rfl
    exact ⟨hset.created, hset.nextIndex, hset.entries⟩
  | ask hfresh => exact ⟨Nat.le_succ _, le_rfl, fun _ t hj => .inl ⟨t, hj, rfl⟩⟩
  | @dial c dialing hdialing conn remote hmay =>
    have hinstall := grows_install (s := { s with dialing }) (.inl hmay) conn remote
    exact ⟨hinstall.created, hinstall.nextIndex, hinstall.entries⟩
  | @accept shared hfresh conn remote id hmay =>
    have hask : Grows dialled s (s.ask shared) := ⟨Nat.le_succ _, le_rfl, fun _ t hj => .inl ⟨t, hj, rfl⟩⟩
    refine ⟨Nat.le_succ _, Nat.le_succ _, fun j t hj => ?_⟩
    rcases tracked_setTracked hj with ⟨rfl, heq⟩ | ⟨-, hj⟩
    · cases heq
      exact .inr ⟨le_rfl, .inr le_rfl⟩
    · exact hask.entries j t hj
  | remove i hmay =>
    refine ⟨le_rfl, le_rfl, fun j t hj => ?_⟩
    rcases tracked_setTracked hj with ⟨-, heq⟩ | ⟨-, hj⟩
    · cases heq
    · exact .inl ⟨t, hj, rfl⟩
  | _ => exact grows_of_eq rfl rfl rfl

/-! ## Runs -/

section Runs
variable [Socket σ] [Platform π κ]

variable {β : Type}

theorem grows_applyOp (op : Op κ β) :
    Grows (fun c => dialledBy op w = some c) (core w) (core (w.applyOp op).2) := by
  have hall := permits_all op w
  have htakes : Takes { dialled := fun _ c => dialledBy op w = some c } w (w.applyOp op).2 :=
    takes_applyOp op { hall with dialled := fun _ hc => hc }
  refine htakes.invariant (I := Grows _ (core w)) (fun hgrows hstep => ?_) (grows_of_eq rfl rfl rfl)
  exact hgrows.trans (grows_step hstep)

omit [Socket σ] [Platform π κ] in
theorem quiet_step {s s' : Core κ} (hstep : Step { advances := False } s s') :
    s'.abandoned = s.abandoned ∧ s'.progress = s.progress := by
  cases hstep with
  | advance h progress => exact h.elim
  | _ => exact ⟨rfl, rfl⟩

theorem quiet_applyOp {op : Op κ β} (hop : QuicEndpointSteps.advances op = false) :
    (w.applyOp op).2.history.abandoned = w.history.abandoned ∧ (w.applyOp op).2.history.progress = w.history.progress := by
  have hall := permits_all op w
  have htakes : Takes { advances := False } w (w.applyOp op).2 :=
    takes_applyOp op { hall with advances := fun hadvances => by simp [hop] at hadvances }
  refine htakes.invariant (I := fun s => s.abandoned = (core w).abandoned ∧ s.progress = (core w).progress) ?_ ⟨rfl, rfl⟩
  rintro s s' ⟨habandoned, hprogress⟩ hstep
  obtain ⟨habandoned', hprogress'⟩ := quiet_step hstep
  exact ⟨habandoned'.trans habandoned, hprogress'.trans hprogress⟩

theorem sound_applyOp (op : Op κ β) (h : Sound (core w)) : Sound (core (w.applyOp op).2) := by
  have htakes : Takes {} w (w.applyOp op).2 := takes_applyOp op (permits_all op w)
  exact h.takes htakes

end Runs

section
omit [Transport κ]

theorem asked_core (w : World κ σ π) : (core w).asked = w.asked := by
  simp [Core.asked, core, World.asked]

theorem sound_act (action : Action) (h : Sound (core w)) : Sound (core (w.act action)) := by
  have hact : HandleStep (fun _ => True) w (w.act action) := handleStep_act action fun _ _ => True.intro
  obtain ⟨more, hasked, hnodup, hmore⟩ := hact.asked
  have htracked : (core (w.act action)).tracked = (core w).tracked := by
    simp only [core, hact.driver]
  have hnext : (core (w.act action)).nextIndex = (core w).nextIndex := by
    simp only [core, hact.driver]
  have hroutes : (core (w.act action)).routes = (core w).routes := by
    simp only [core, hact.driver]
  rw [← asked_core, ← asked_core] at hasked
  refine ⟨fun i tracked hi => ?_, ?_, ?_, fun c hc => ?_, ?_⟩
  · rw [htracked] at hi
    obtain ⟨hlt, hbelow, hnot⟩ := h.tracked i tracked hi
    refine ⟨hnext ▸ hlt, hbelow.trans_le hact.created, fun hc => ?_⟩
    rcases List.mem_append.mp (hasked.mem_iff.mp hc) with hc | hc
    · exact hnot hc
    · exact absurd hbelow (hmore _ hc).1.not_gt
  · rw [htracked]
    exact h.once
  · refine hasked.nodup_iff.mpr (List.nodup_append.mpr ⟨h.nodup, hnodup, fun c hc c' hc' heq => ?_⟩)
    subst heq
    exact absurd (h.below c hc) (hmore c hc').1.not_gt
  · rcases List.mem_append.mp (hasked.mem_iff.mp hc) with hc | hc
    · exact (h.below c hc).trans_le hact.created
    · exact (hmore c hc).2.1
  · rw [hroutes, htracked]
    exact h.routed

theorem grows_act (action : Action) : Grows dialled (core w) (core (w.act action)) := by
  have hact : HandleStep (fun _ => True) w (w.act action) := handleStep_act action fun _ _ => True.intro
  refine ⟨hact.created, ?_, fun i tracked' hi => .inl ⟨tracked', ?_, rfl⟩⟩
  · simp only [core, hact.driver, le_refl]
  · simpa only [core, hact.driver] using hi

theorem sound_built (socket : σ) (platform : π) (detachable : Bool) :
    Sound (core (built socket platform detachable : World κ σ π)) where
  tracked i tracked h := by simp [core, built] at h
  once i j tracked tracked' h := by simp [core, built] at h
  nodup := List.nodup_nil
  below c hc := by simp [core, built, Core.asked] at hc
  routed route hroute := by simp [core, built] at hroute

end

end Ngnet.QuicConnectionTable
