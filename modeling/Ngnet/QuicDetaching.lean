import Ngnet.QuicEvictions

/-!
# Detached connects that are given up

A caller of `connect_detached` that drops its `Detaching` takes the connection out of the queue, if it is there,
and then marks it as one that no one drives. The driver looks at that mark only once it has handed a connection
over. An attempt that is given up before that is dialled, driven and handed over all the same, to a queue that no
one will look into for it.
-/

namespace Ngnet.QuicDetaching
open QmuxVarints InterleavedPrograms QuicEndpoint QuicEndpointDriver QuicEndpointSteps QuicConnectionTable
open QuicEndpointProtocols QuicEvictions QuicScriptedHost

variable {κ σ π : Type} {w w' : World κ σ π} {i j c : ℕ} {tracked tracked' : Tracked κ} {s s' : Core κ}

/-! ## Who may collect what -/

/-- The `Detaching` of a connect was dropped, or is being dropped. -/
def GivenUp (s : Core κ) (c : ℕ) : Prop := c ∈ s.dropping ∨ c ∈ s.abandoned

/-- It was dropped or may yet be: no one drives the connection. -/
def Claimed (s : Core κ) (c : ℕ) : Prop := c ∈ s.detaching ∨ GivenUp s c

/-- What waits in the queue is a connection of the kind that it is queued as, that no one was given, and that no
one who could collect it has given up. -/
structure Handing (s : Core κ) : Prop where
  below : ∀ c ∈ s.dialled, c < s.created
  kinds : ∀ c < s.created, (s.shareds c).detach = true → ((s.shareds c).detachToAcceptor = true ↔ c ∉ s.dialled)
  ready : ∀ d ∈ s.ready, d.shared < s.created ∧ d.shared ∉ s.asked ∧ (s.shareds d.shared).detach = true ∧
    d.toAcceptor = (s.shareds d.shared).detachToAcceptor
  handed : ∀ d ∈ s.ready, ∀ i tracked, s.tracked i = some tracked → tracked.shared = d.shared → tracked.conn = none
  once : (s.ready.map (·.shared)).Nodup
  owned : ∀ c ∈ s.owned, c < s.created
  claimed : ∀ c, Claimed s c → c ∈ s.dialled ∧ (s.shareds c).hasOutbound = false ∧ c ∉ s.owned
  apart : ∀ c ∈ s.detaching, ¬ GivenUp s c
  givenUp : ∀ c, GivenUp s c → ∀ d ∈ s.ready, d.shared ≠ c
  terminal : ∀ c ∈ s.abandoned, (s.shareds c).terminal = true

/-- What is shared keeps its kind, its mark, and an empty queue. -/
structure Kept (owned : Prop) (shared shared' : ConnectionShared) : Prop where
  detach : shared'.detach = shared.detach
  detachToAcceptor : shared'.detachToAcceptor = shared.detachToAcceptor
  terminal : shared.terminal = true → shared'.terminal = true
  outbound : ¬ owned → shared.hasOutbound = false → shared'.hasOutbound = false

variable {owned : Prop}

theorem Kept.refl (shared : ConnectionShared) : Kept owned shared shared := ⟨rfl, rfl, id, fun _ => id⟩

theorem kept_of_quiet {shared shared' : ConnectionShared} (h : Quiet shared shared') :
    Kept owned shared shared' := ⟨h.detach, h.detachToAcceptor, h.terminal.trans, fun _ => h.outbound⟩

theorem kept_of_handled {shared shared' : ConnectionShared} (h : Handled owned shared shared') :
    Kept owned shared shared' := by
  refine ⟨h.detach, h.detachToAcceptor, h.terminal, fun howned hnone => ?_⟩
  rcases h.queue with hmay | ⟨houtbound, hclose⟩
  · exact (howned hmay).elim
  · rw [ConnectionShared.hasOutbound, houtbound, hclose]
    exact hnone

theorem kept_notes (shared : ConnectionShared) (notes : List Note) : Kept owned shared (notes.foldl .note shared) := by
  have h := handled_notes False shared notes
  refine ⟨h.detach, h.detachToAcceptor, h.terminal, fun _ hnone => ?_⟩
  obtain ⟨houtbound, hclose⟩ := h.queue.resolve_left id
  rw [ConnectionShared.hasOutbound, houtbound, hclose]
  exact hnone

theorem kept_modifyShared {owned : ℕ → Prop} {f : ConnectionShared → ConnectionShared}
    (hf : Kept (owned c) (s.shareds c) (f (s.shareds c))) (d : ℕ) :
    Kept (owned d) (s.shareds d) ((s.modifyShared c f).shareds d) := by
  by_cases hd : d = c
  · subst hd
    simpa [Core.modifyShared] using hf
  · rw [shareds_of_ne hd]
    exact .refl _

/-- The lists of a state that tell who may collect what. -/
structure SameClaims (s s' : Core κ) : Prop where
  created : s'.created = s.created
  dialled : s'.dialled = s.dialled
  ready : s'.ready = s.ready
  detaching : s'.detaching = s.detaching
  dropping : s'.dropping = s.dropping
  abandoned : s'.abandoned = s.abandoned
  owned : s'.owned = s.owned

theorem SameClaims.givenUp (h : SameClaims s s') : GivenUp s' c ↔ GivenUp s c := by
  rw [GivenUp, GivenUp, h.dropping, h.abandoned]

theorem SameClaims.claimed (h : SameClaims s s') : Claimed s' c ↔ Claimed s c := by
  rw [Claimed, Claimed, h.detaching, h.givenUp]

theorem Handing.of_claims (h : Handing s) (hclaims : SameClaims s s') (hasked : ∀ c < s.created, c ∈ s'.asked → c ∈ s.asked)
    (hkept : ∀ c < s.created, Kept (c ∈ s.owned) (s.shareds c) (s'.shareds c))
    (htracked : ∀ i tracked', s'.tracked i = some tracked' → (∃ tracked, s.tracked i = some tracked ∧
      tracked.shared = tracked'.shared ∧ (tracked.conn = none → tracked'.conn = none)) ∨ ∀ d ∈ s.ready, tracked'.shared ≠ d.shared) :
    Handing s' where
  below c hc := by
    rw [hclaims.dialled] at hc
    exact hclaims.created ▸ h.below c hc
  kinds c hc hdetach := by
    rw [hclaims.created] at hc
    rw [(hkept c hc).detach] at hdetach
    rw [(hkept c hc).detachToAcceptor, hclaims.dialled]
    exact h.kinds c hc hdetach
  ready d hd := by
    rw [hclaims.ready] at hd
    obtain ⟨hlt, hnot, hdetach, hkind⟩ := h.ready d hd
    refine ⟨hclaims.created ▸ hlt, fun hc => hnot (hasked _ hlt hc), ?_, ?_⟩
    · exact (hkept _ hlt).detach.trans hdetach
    · exact hkind.trans (hkept _ hlt).detachToAcceptor.symm
  handed d hd i tracked' hi hshared := by
    rw [hclaims.ready] at hd
    rcases htracked i tracked' hi with ⟨tracked, hold, hsame, hconn⟩ | hnone
    · exact hconn (h.handed d hd i tracked hold (hsame.trans hshared))
    · exact (hnone d hd hshared).elim
  once := hclaims.ready ▸ h.once
  owned c hc := by
    rw [hclaims.owned] at hc
    exact hclaims.created ▸ h.owned c hc
  claimed c hc := by
    obtain ⟨hdialled, hnone, howned⟩ := h.claimed c (hclaims.claimed.mp hc)
    refine ⟨hclaims.dialled ▸ hdialled, ?_, hclaims.owned ▸ howned⟩
    exact (hkept c (h.below c hdialled)).outbound howned hnone
  apart c hc hgiven := by
    rw [hclaims.detaching] at hc
    exact h.apart c hc (hclaims.givenUp.mp hgiven)
  givenUp c hc d hd := by
    rw [hclaims.ready] at hd
    exact h.givenUp c (hclaims.givenUp.mp hc) d hd
  terminal c hc := by
    rw [hclaims.abandoned] at hc
    have hlt := h.below c (h.claimed c (.inr (.inr hc))).1
    exact (hkept c hlt).terminal (h.terminal c hc)

theorem Handing.of_entries (h : Handing s) (hclaims : SameClaims s s') (hasked : s'.asked ⊆ s.asked)
    (hkept : ∀ c, Kept (c ∈ s.owned) (s.shareds c) (s'.shareds c))
    (htracked : ∀ i tracked', s'.tracked i = some tracked' → ∃ tracked, s.tracked i = some tracked ∧
      tracked.shared = tracked'.shared ∧ (tracked.conn = none → tracked'.conn = none)) : Handing s' :=
  h.of_claims hclaims (fun _ _ hc => hasked hc) (fun c _ => hkept c) fun i tracked' hi => .inl (htracked i tracked' hi)

theorem Handing.modifyShared (h : Handing s) {f : ConnectionShared → ConnectionShared}
    (hf : Kept (c ∈ s.owned) (s.shareds c) (f (s.shareds c))) : Handing (s.modifyShared c f) :=
  h.of_entries ⟨rfl, rfl, rfl, rfl, rfl, rfl, rfl⟩ (List.Subset.refl _) (kept_modifyShared hf)
    fun _ tracked hi => ⟨tracked, hi, rfl, id⟩

theorem Handing.setTracked (h : Handing s) (htracked : s.tracked i = some tracked) (hshared : tracked'.shared = tracked.shared)
    (hconn : tracked.conn = none → tracked'.conn = none) : Handing (s.setTracked i (some tracked')) := by
  refine h.of_entries ⟨rfl, rfl, rfl, rfl, rfl, rfl, rfl⟩ (List.Subset.refl _) (fun _ => .refl _) fun j t hj => ?_
  rcases tracked_setTracked hj with ⟨rfl, heq⟩ | ⟨-, hj⟩
  · cases heq
    exact ⟨tracked, htracked, hshared.symm, hconn⟩
  · exact ⟨t, hj, rfl, id⟩

section Steps
variable [Transport κ]

/-- No connection is handed over whose connect was given up. -/
def keeping : May κ where
  handed s c := ¬ GivenUp s c

omit [Transport κ] in
theorem Handing.ask (h : Handing s) {shared : ConnectionShared} (hfresh : Fresh shared) : Handing (s.ask shared) := by
  have hnew : s.created ∉ s.dialled := fun hc => (h.below _ hc).false
  have hold : ∀ c < s.created, (s.ask shared).shareds c = s.shareds c := fun c hc => by
    simp [Core.ask, Function.update_of_ne hc.ne]
  refine ⟨fun c hc => (h.below c hc).trans (Nat.lt_succ_self _), fun c hc hdetach => ?_, fun d hd => ?_, h.handed, h.once,
    fun c hc => (h.owned c hc).trans (Nat.lt_succ_self _), fun c hc => ?_, h.apart, h.givenUp, fun c hc => ?_⟩
  · rcases Nat.lt_succ_iff_lt_or_eq.mp hc with hc | rfl
    · rw [hold c hc] at hdetach ⊢
      exact h.kinds c hc hdetach
    · have hself : (s.ask shared).shareds s.created = shared := by simp [Core.ask]
      rw [hself] at hdetach ⊢
      exact ⟨fun _ => hnew, fun _ => hfresh.detachToAcceptor.trans hdetach⟩
  · obtain ⟨hlt, hrest⟩ := h.ready d hd
    rw [hold _ hlt]
    exact ⟨hlt.trans (Nat.lt_succ_self _), hrest⟩
  · obtain ⟨hdialled, hrest⟩ := h.claimed c hc
    rw [hold c (h.below c hdialled)]
    exact ⟨hdialled, hrest⟩
  · have hlt := h.below c (h.claimed c (.inr (.inr hc))).1
    rw [hold c hlt]
    exact h.terminal c hc

theorem Handing.step (hsound : Sound s) (h : Handing s) (hstep : Step keeping s s') : Handing s' := by
  cases hstep with
  | share c hf => exact h.modifyShared (kept_of_quiet hf)
  | @call i tracked conn htracked hconn _ call =>
    have hset : Handing (s.setTracked i (some { tracked with conn := some (Transport.call call conn).2.2 })) := by
      refine h.setTracked htracked rfl fun hnone => ?_
      rw [hconn] at hnone
      cases hnone
    have hcalled : Handing ((s.setTracked i (some { tracked with conn := some (Transport.call call conn).2.2 })).modifyShared
        tracked.shared fun shared => (Transport.call call conn).2.1.foldl .note shared) := hset.modifyShared (kept_notes _ _)
    exact { hcalled with }
  | pend htracked pending => exact h.setTracked htracked rfl id
  | @finish i tracked htracked error =>
    have hset : Handing (s.setTracked i (some { tracked with finished := true })) := h.setTracked htracked rfl id
    exact hset.modifyShared ⟨rfl, rfl, id, fun _ => id⟩
  | fail htracked hover error => exact h.modifyShared ⟨rfl, rfl, id, fun _ => id⟩
  | failSilently hsilent error => exact h.modifyShared ⟨rfl, rfl, id, fun _ => id⟩
  | establish htracked => exact h.modifyShared ⟨rfl, rfl, id, fun _ => id⟩
  | @handOver i tracked conn htracked hconn hdetach hestablished hmay =>
    have hset : Handing (s.setTracked i (some { tracked with conn := none })) := h.setTracked htracked rfl fun _ => rfl
    obtain ⟨-, hlt, hasked⟩ := hsound.tracked i tracked htracked
    have hnew : ∀ d ∈ s.ready, d.shared ≠ tracked.shared := by
      intro d hd heq
      have hnone := h.handed d hd i tracked htracked heq.symm
      rw [hconn] at hnone
      cases hnone
    refine { hset with ready := fun d hd => ?_, handed := fun d hd j t hj hshared => ?_, once := ?_, givenUp := fun c hc d hd => ?_ }
    · rcases List.mem_append.mp hd with hd | hd
      · exact hset.ready d hd
      · obtain rfl := List.mem_singleton.mp hd
        exact ⟨hlt, hasked, hdetach, rfl⟩
    · rcases List.mem_append.mp hd with hd | hd
      · exact hset.handed d hd j t hj hshared
      · obtain rfl := List.mem_singleton.mp hd
        rcases tracked_setTracked hj with ⟨-, heq⟩ | ⟨hne, hj⟩
        · cases heq
          rfl
        · exact (hne (hsound.once j i t tracked hj htracked hshared)).elim
    · simp only [List.map_append, List.map_cons, List.map_nil]
      refine List.nodup_append.mpr ⟨h.once, List.nodup_cons.mpr ⟨List.not_mem_nil, List.nodup_nil⟩, fun c hc c' hc' heq => ?_⟩
      obtain ⟨d, hd, rfl⟩ := List.mem_map.mp hc
      exact hnew d hd (heq.trans (List.mem_singleton.mp hc'))
    · rcases List.mem_append.mp hd with hd | hd
      · exact h.givenUp c hc d hd
      · obtain rfl := List.mem_singleton.mp hd
        rintro rfl
        exact hmay hc
  | ask hfresh => exact h.ask hfresh
  | @dial c dialing hdialing conn remote hmay =>
    have hmem : c ∈ s.asked := by simp [Core.asked, hdialing]
    refine h.of_claims ⟨rfl, rfl, rfl, rfl, rfl, rfl, rfl⟩ (fun d _ hd => ?_) (fun _ _ => .refl _) fun j t hj => ?_
    · simp only [Core.asked, hdialing, List.cons_append, List.mem_cons]
      exact .inr hd
    · rcases tracked_setTracked hj with ⟨-, heq⟩ | ⟨-, hj⟩
      · cases heq
        exact .inr fun d hd heq => (h.ready d hd).2.1 (heq ▸ hmem)
      · exact .inl ⟨t, hj, rfl, id⟩
  | @undial c dialing hdialing error =>
    have hfewer : Handing ({ s with dialing } : Core κ) := by
      refine h.of_entries ⟨rfl, rfl, rfl, rfl, rfl, rfl, rfl⟩ (fun d hd => ?_) (fun _ => .refl _) fun _ t hj => ⟨t, hj, rfl, id⟩
      simp only [Core.asked, hdialing, List.cons_append, List.mem_cons]
      exact .inr hd
    exact hfewer.modifyShared ⟨rfl, rfl, id, fun _ => id⟩
  | @accept shared hfresh conn remote id hmay =>
    have hask := h.ask hfresh
    have hinstall : Handing ((s.ask shared).install conn s.created remote) := by
      refine hask.of_claims ⟨rfl, rfl, rfl, rfl, rfl, rfl, rfl⟩ (fun _ _ hd => hd) (fun _ _ => .refl _) fun j t hj => ?_
      rcases tracked_setTracked hj with ⟨-, heq⟩ | ⟨-, hj⟩
      · cases heq
        exact .inr fun d hd heq => (h.ready d hd).1.ne' heq
      · exact .inl ⟨t, hj, rfl, fun hnone => hnone⟩
    exact { hinstall with }
  | @applyRoutes i tracked htracked hmay =>
    have hempty : Handing (s.modifyShared tracked.shared ({ · with routes := [] })) :=
      h.modifyShared ⟨rfl, rfl, id, fun _ => id⟩
    exact { hempty with }
  | remove i hmay =>
    refine h.of_entries ⟨rfl, rfl, rfl, rfl, rfl, rfl, rfl⟩ (List.Subset.refl _) (fun _ => .refl _) fun j t hj => ?_
    rcases tracked_setTracked hj with ⟨-, heq⟩ | ⟨-, hj⟩
    · cases heq
    · exact ⟨t, hj, rfl, id⟩
  | drain hmay =>
    refine h.of_entries ⟨rfl, rfl, rfl, rfl, rfl, rfl, rfl⟩ (fun d hd => ?_) (fun _ => .refl _) fun _ t hj => ⟨t, hj, rfl, id⟩
    simp only [Core.asked, List.append_nil, List.mem_append] at hd ⊢
    exact hd.imp_left .inr
  | failDials error =>
    refine h.of_entries ⟨rfl, rfl, rfl, rfl, rfl, rfl, rfl⟩ (fun d hd => ?_) (fun c => ?_) fun _ t hj => ⟨t, hj, rfl, id⟩
    · simp only [Core.asked, List.append_nil, List.mem_append] at hd ⊢
      exact hd.imp_left .inl
    · dsimp only
      split
      · exact ⟨rfl, rfl, id, fun _ => id⟩
      · exact .refl _
  | markGone => exact { h with }
  | complete hmay sent => exact { h with }
  | advance hmay progress => exact { h with }

theorem Handing.takes (hsound : Sound (core w)) (h : Handing (core w)) (htakes : Takes keeping w w') :
    Handing (core w') := by
  have hboth := htakes.invariant (I := fun s => Sound s ∧ Handing s)
    (fun ⟨hsound, h⟩ hstep => ⟨hsound.step hstep, h.step hsound hstep⟩) ⟨hsound, h⟩
  exact hboth.2

end Steps

/-! ## Handles -/

/-- The actions that change who may collect what. -/
def settles : Action → Bool
  | .connect .. | .collect _ | .giveUp _ | .abandon _ | .markAbandoned _ | .dropDetached _ => true
  | _ => false

theorem sameClaims_act {action : Action} (h : settles action = false) : SameClaims (core w) (core (w.act action)) := by
  cases action
  case connect => cases h
  case collect => cases h
  case giveUp => cases h
  case abandon => cases h
  case markAbandoned => cases h
  case dropDetached => cases h
  all_goals
    simp only [World.act, World.pushDial, World.command, World.commandIfOpen, World.write, World.pushWrite, World.read,
      World.acceptStream, World.dropHandle, World.note, World.own, World.send, World.sendClose]
    repeat' split
  all_goals exact ⟨rfl, rfl, rfl, rfl, rfl, rfl, rfl⟩

theorem owned_of_queues {action : Action} (h : queues w action = some c) : c ∈ w.owned := by
  cases action
  case send d datagram =>
    rw [queues] at h
    split at h
    · rename_i howned
      exact Option.some.inj h ▸ howned
    · cases h
  case sendClose d datagram =>
    rw [queues] at h
    split at h
    · rename_i howned
      exact Option.some.inj h ▸ howned
    · cases h
  all_goals cases h

theorem handing_idle (action : Action) (hsettles : settles action = false) (h : Handing (core w)) :
    Handing (core (w.act action)) := by
  have hact : HandleStep (· ∈ w.owned) w (w.act action) := handleStep_act action fun _ hc => owned_of_queues hc
  have hclaims := sameClaims_act (w := w) hsettles
  obtain ⟨more, hasked, -, hmore⟩ := hact.asked
  rw [← asked_core, ← asked_core] at hasked
  refine h.of_claims hclaims (fun c hlt hc => ?_) (fun c hc => kept_of_handled (hact.shareds c hc)) fun i tracked hi => ?_
  · rcases List.mem_append.mp (hasked.mem_iff.mp hc) with hc | hc
    · exact hc
    · exact absurd hlt (hmore c hc).1.not_gt
  · simp only [core, hact.driver] at hi
    exact .inl ⟨tracked, hi, rfl, id⟩

theorem shareds_connect (w : World κ σ π) (remote : Address) (serverName : Option String) (detach : Bool) :
    let shared := (w.connect remote serverName detach).shareds w.created
    shared.detach = detach ∧ shared.detachToAcceptor = false ∧ shared.hasOutbound = false := by
  rw [World.connect]
  dsimp only
  split
  all_goals
    simp [World.modifyShared, World.onHistory, World.ask, ConnectionShared.fail, ConnectionShared.hasOutbound]

theorem claims_connect (w : World κ σ π) (remote : Address) (serverName : Option String) (detach : Bool) :
    let s := core (w.connect remote serverName detach)
    s.created = w.created + 1 ∧ s.dialled = w.created :: w.history.dialled ∧ s.ready = w.ready ∧
      s.detaching = (if detach then w.created :: w.detaching else w.detaching) ∧ s.dropping = w.dropping ∧
        s.abandoned = w.history.abandoned ∧ s.owned = w.owned := by
  rw [World.connect]
  dsimp only
  split
  all_goals exact ⟨rfl, rfl, rfl, rfl, rfl, rfl, rfl⟩

theorem handing_connect (h : Handing (core w)) (remote : Address) (serverName : Option String) (detach : Bool) :
    Handing (core (w.connect remote serverName detach)) := by
  have hact : HandleStep (fun _ => False) w (w.connect remote serverName detach) := handleStep_connect remote serverName detach
  obtain ⟨hcreated, hdialled, hready, hdetaching, hdropping, habandoned, howned⟩ := claims_connect w remote serverName detach
  obtain ⟨hdetach, hacceptor, hnone⟩ := shareds_connect w remote serverName detach
  obtain ⟨more, hasked, -, hmore⟩ := hact.asked
  rw [← asked_core, ← asked_core] at hasked
  have hold : ∀ c < w.created, Kept False (w.shareds c) ((core (w.connect remote serverName detach)).shareds c) :=
    fun c hc => kept_of_handled (hact.shareds c hc)
  have hgiven : ∀ c, GivenUp (core (w.connect remote serverName detach)) c ↔ GivenUp (core w) c := by
    intro c
    rw [GivenUp, hdropping, habandoned]
    exact Iff.rfl
  have hbelow : ∀ c, Claimed (core w) c → c < w.created := fun c hc => h.below c (h.claimed c hc).1
  have hclaimed : ∀ c, Claimed (core (w.connect remote serverName detach)) c → c = w.created ∨ Claimed (core w) c := by
    intro c hc
    rcases hc with hc | hc
    · rw [hdetaching] at hc
      split at hc
      · exact (List.mem_cons.mp hc).imp_right .inl
      · exact .inr (.inl hc)
    · exact .inr (.inr ((hgiven c).mp hc))
  constructor
  case below =>
    intro c hc
    rw [hdialled] at hc
    rw [hcreated]
    rcases List.mem_cons.mp hc with rfl | hc
    · exact Nat.lt_succ_self _
    · exact (h.below c hc).trans (Nat.lt_succ_self _)
  case kinds =>
    intro c hc hdetached
    rw [hcreated] at hc
    rcases Nat.lt_succ_iff_lt_or_eq.mp hc with hc | rfl
    · rw [(hold c hc).detach] at hdetached
      rw [(hold c hc).detachToAcceptor, hdialled, List.mem_cons, not_or]
      exact (h.kinds c hc hdetached).trans ⟨fun hnot => ⟨hc.ne, hnot⟩, fun hnot => hnot.2⟩
    · refine iff_of_false (fun hkind => ?_) fun hnot => hnot (hdialled ▸ List.mem_cons_self)
      cases hacceptor.symm.trans hkind
  case ready =>
    intro d hd
    rw [hready] at hd
    obtain ⟨hlt, hnot, hwanted, hkind⟩ := h.ready d hd
    refine ⟨hcreated ▸ hlt.trans (Nat.lt_succ_self _), fun hc => ?_, (hold _ hlt).detach.trans hwanted,
      hkind.trans (hold _ hlt).detachToAcceptor.symm⟩
    rcases List.mem_append.mp (hasked.mem_iff.mp hc) with hc | hc
    · exact hnot hc
    · exact absurd hlt (hmore _ hc).1.not_gt
  case handed =>
    intro d hd i tracked hi hshared
    rw [hready] at hd
    simp only [core, hact.driver] at hi
    exact h.handed d hd i tracked hi hshared
  case once => exact hready ▸ h.once
  case owned =>
    intro c hc
    rw [howned] at hc
    exact hcreated ▸ (h.owned c hc).trans (Nat.lt_succ_self _)
  case claimed =>
    intro c hc
    rw [hdialled, howned]
    rcases hclaimed c hc with rfl | hc
    · exact ⟨List.mem_cons_self, hnone, fun hmem => (h.owned _ hmem).false⟩
    · obtain ⟨hmem, hempty, hnot⟩ := h.claimed c hc
      exact ⟨List.mem_cons_of_mem _ hmem, (hold c (hbelow c hc)).outbound id hempty, hnot⟩
  case apart =>
    intro c hc hgone
    have hgone := (hgiven c).mp hgone
    rcases hclaimed c (.inl hc) with rfl | hold
    · exact (hbelow _ (.inr hgone)).false
    · rw [hdetaching] at hc
      split at hc
      · rcases List.mem_cons.mp hc with rfl | hc
        · exact (hbelow _ (.inr hgone)).false
        · exact h.apart c hc hgone
      · exact h.apart c hc hgone
  case givenUp =>
    intro c hc d hd
    rw [hready] at hd
    exact h.givenUp c ((hgiven c).mp hc) d hd
  case terminal =>
    intro c hc
    rw [habandoned] at hc
    exact (hold c (hbelow c (.inr (.inr hc)))).terminal (h.terminal c hc)

variable {d : Detached κ}

theorem shared_of_key (h : d.key = some c) : d.shared = c := by
  rw [Detached.key] at h
  split at h
  · cases h
  · exact Option.some.inj h

theorem Handing.key (h : Handing s) (hdialled : c ∈ s.dialled) (hd : d ∈ s.ready) (hshared : d.shared = c) :
    d.key = some c := by
  obtain ⟨hlt, -, hdetach, hkind⟩ := h.ready d hd
  subst hshared
  have hnot : d.toAcceptor ≠ true := by
    rw [hkind]
    exact fun hacceptor => (h.kinds _ hlt hdetach).mp hacceptor hdialled
  rw [Detached.key, if_neg hnot]

theorem Handing.erase (h : Handing s) (key : Option ℕ) :
    Handing { s with ready := s.ready.eraseP (·.key = key) } where
  below := h.below
  kinds := h.kinds
  ready d hd := h.ready d (List.mem_of_mem_eraseP hd)
  handed d hd := h.handed d (List.mem_of_mem_eraseP hd)
  once := h.once.sublist ((List.eraseP_sublist).map _)
  owned := h.owned
  claimed := h.claimed
  apart := h.apart
  givenUp c hc d hd := h.givenUp c hc d (List.mem_of_mem_eraseP hd)
  terminal := h.terminal

theorem Handing.gone (h : Handing s) {key : Option ℕ} (hfind : s.ready.find? (·.key = key) = some d) :
    ∀ d' ∈ s.ready.eraseP (·.key = key), d'.shared ≠ d.shared := by
  have hperm := (perm_eraseP hfind).map (·.shared)
  have hnodup := hperm.nodup_iff.mpr h.once
  rw [List.map_cons, List.nodup_cons] at hnodup
  intro d' hd' heq
  exact hnodup.1 (heq ▸ List.mem_map_of_mem hd')

theorem handing_collect (h : Handing (core w)) (key : Option ℕ) : Handing (core (w.collect key)) := by
  rw [World.collect]
  split
  · rename_i hkey
    split
    · exact h
    rename_i d hfind
    have herase := h.erase key
    have hmem := List.mem_of_find?_eq_some hfind
    have hdkey : d.key = key := by simpa using List.find?_some hfind
    have hfilter : ∀ c ∈ w.detaching.filter (some · ≠ key), c ∈ w.detaching ∧ some c ≠ key :=
      fun c hc => (List.mem_filter.mp hc).imp_right fun hne => of_decide_eq_true hne
    refine { herase with
      owned := fun c hc => ?_, claimed := fun c hc => ?_, apart := fun c hc => h.apart c (hfilter c hc).1 }
    · rcases List.mem_cons.mp hc with rfl | hc
      · exact (h.ready d hmem).1
      · exact h.owned c hc
    have hold : Claimed (core w) c := hc.imp_left fun hc => (hfilter c hc).1
    obtain ⟨hdialled, hnone, howned⟩ := h.claimed c hold
    refine ⟨hdialled, hnone, fun hmem' => ?_⟩
    rcases List.mem_cons.mp hmem' with heq | hmem'
    · -- The connection was asked for, so it was collected under its own key.
      have hck : some c = key := (h.key hdialled hmem heq.symm).symm.trans hdkey
      rcases hc with hc | hc
      · exact (hfilter c hc).2 hck
      · refine h.apart c ?_ hc
        show c ∈ w.detaching
        simpa [← hck] using hkey
    · exact howned hmem'
  · exact h

theorem handing_abandon (h : Handing (core w)) (c : ℕ) : Handing (core (w.abandon c)) := by
  rw [World.abandon]
  split
  · rename_i hc
    have hdialled : c ∈ w.history.dialled := (h.claimed c (.inl hc)).1
    have hfilter : ∀ d ∈ w.detaching.filter (· ≠ c), d ∈ w.detaching ∧ d ≠ c :=
      fun d hd => (List.mem_filter.mp hd).imp_right fun hne => of_decide_eq_true hne
    -- What was claimed still is, and nothing else.
    have hclaim : ∀ {s : Core κ}, Handing s → s.detaching = w.detaching → s.dropping = w.dropping →
        s.dialled = w.history.dialled → c ∈ s.dialled → s.abandoned = w.history.abandoned → (∀ d ∈ s.ready, d.shared ≠ c) →
        Handing { s with detaching := w.detaching.filter (· ≠ c), dropping := c :: w.dropping } := by
      intro s hs hdetaching hdropping _ _ habandoned hready
      have hgiven : ∀ d, GivenUp { s with detaching := w.detaching.filter (· ≠ c), dropping := c :: w.dropping } d →
          d = c ∨ GivenUp s d := by
        intro d hd
        rcases hd with hd | hd
        · rcases List.mem_cons.mp hd with rfl | hd
          · exact .inl rfl
          · exact .inr (.inl (hdropping ▸ hd))
        · exact .inr (.inr hd)
      refine { hs with claimed := fun d hd => ?_, apart := fun d hd hgone => ?_, givenUp := fun d hd e he => ?_ }
      · refine hs.claimed d ?_
        rcases hd with hd | hd
        · exact .inl (hdetaching ▸ (hfilter d hd).1)
        · rcases hgiven d hd with rfl | hd
          · exact .inl (hdetaching ▸ hc)
          · exact .inr hd
      · rcases hgiven d hgone with rfl | hgone
        · exact (hfilter d hd).2 rfl
        · exact hs.apart d (hdetaching ▸ (hfilter d hd).1) hgone
      · rcases hgiven d hd with rfl | hd
        · exact hready e he
        · exact hs.givenUp d hd e he
    dsimp only
    split
    · rename_i hfind
      refine hclaim h rfl rfl rfl hdialled rfl fun d hd heq => ?_
      have hnone := List.find?_eq_none.mp hfind d hd
      exact hnone (by simp [h.key hdialled hd heq])
    · rename_i d hfind
      have hshared : d.shared = c := shared_of_key (by simpa using List.find?_some hfind)
      have hmarked : Handing ((core w).modifyShared d.shared (·.markTerminal)) :=
        h.modifyShared (kept_of_handled (handled_markTerminal _ _))
      have herase := hmarked.erase (some c)
      exact hclaim herase rfl rfl rfl hdialled rfl fun d' hd' heq => h.gone hfind d' hd' (heq.trans hshared.symm)
  · exact h

theorem handing_markAbandoned (h : Handing (core w)) (c : ℕ) : Handing (core (w.markAbandoned c)) := by
  rw [World.markAbandoned]
  split
  · rename_i hc
    have hmarked : Handing ((core w).modifyShared c (·.markTerminal)) :=
      h.modifyShared (kept_of_handled (handled_markTerminal _ _))
    have hgiven : ∀ d, d ∈ w.dropping.filter (· ≠ c) ∨ d ∈ c :: w.history.abandoned → GivenUp (core w) d := by
      intro d hd
      rcases hd with hd | hd
      · exact .inl (List.mem_of_mem_filter hd)
      · rcases List.mem_cons.mp hd with rfl | hd
        · exact .inl hc
        · exact .inr hd
    refine { hmarked with claimed := fun d hd => ?_, apart := fun d hd hgone => ?_, givenUp := fun d hd => ?_, terminal := fun d hd => ?_ }
    · exact hmarked.claimed d (hd.imp_right (hgiven d))
    · exact h.apart d hd (hgiven d hgone)
    · exact h.givenUp d (hgiven d hd)
    · rcases List.mem_cons.mp hd with rfl | hd
      · simp [core, World.onHistory, World.modifyShared, ConnectionShared.markTerminal]
      · exact hmarked.terminal d hd
  · exact h

theorem handing_act (action : Action) (h : Handing (core w)) : Handing (core (w.act action)) := by
  cases action
  case connect remote serverName detach => exact handing_connect h remote serverName detach
  case collect key => exact handing_collect h key
  case abandon c => exact handing_abandon h c
  case markAbandoned c => exact handing_markAbandoned h c
  case giveUp c =>
    rw [World.act, World.giveUp]
    split
    · refine { h with claimed := fun d hd => h.claimed d ?_, apart := fun d hd => h.apart d (List.mem_of_mem_filter hd) }
      exact hd.imp_left List.mem_of_mem_filter
    · exact h
  case dropDetached c =>
    refine { h with owned := fun d hd => h.owned d (List.mem_of_mem_erase hd), claimed := fun d hd => ?_ }
    obtain ⟨hdialled, hnone, howned⟩ := h.claimed d hd
    exact ⟨hdialled, hnone, fun hmem => howned (List.mem_of_mem_erase hmem)⟩
  all_goals exact handing_idle _ rfl h

/-! ## Passes -/

/-- No entry is left of a connection, neither in the queue nor in the table. -/
def Forgotten (w : World κ σ π) (c : ℕ) : Prop := (∀ d ∈ w.ready, d.shared ≠ c) ∧
  ∀ (i : ℕ) (tracked : Tracked κ), w.driver.connections[i]? = some tracked → tracked.shared ≠ c

/-- The connections that were given up before the driver walked its connections are to be looked at, or were
found done; those that were before it last evicted are not tracked. -/
structure Passed (w : World κ σ π) (k : Sweep) : Prop where
  passing : ∀ c ∈ w.history.progress.passing, c ∈ w.history.abandoned
  served : ∀ c ∈ w.history.progress.served, c ∈ w.history.abandoned ∧ ∀ (i : ℕ) (tracked : Tracked κ),
    w.driver.connections[i]? = some tracked → tracked.shared ≠ c
  left : ∀ todo dead, k = .sweeping todo dead → ∀ (i : ℕ) (tracked : Tracked κ), w.driver.connections[i]? = some tracked →
    tracked.shared ∈ w.history.progress.passing → i ∈ todo ∨ i ∈ dead

section Runs
variable [Transport κ] [Socket σ] [Platform π κ] {config : Config} {fuel : ℕ} {socket : σ} {platform : π}
  {detachable : Bool} {choices : List (Choice Action)}

/-- The operation keeps what no one is going to collect: it hands a connection over that was given up, tracks one
for which a pass has come to its end since, or leaves one in the table that has not come to its own end. -/
def strands {β : Type} (op : Op κ β) (w : World κ σ π) : Bool :=
  match op with
  | .handOver index => (handedBy (.handOver index : Op κ Unit) w).any fun c => c ∈ w.dropping || c ∈ w.history.abandoned
  | .dial => (dialledBy (.dial : Op κ Unit) w).any (· ∈ w.history.progress.served)
  | .isDone index => connAt w index fun tracked _ => tracked.shared ∈ w.history.progress.passing &&
    !((w.shareds tracked.shared).closed && tracked.pending.isNone && isOver tracked)
  | _ => false

/-- It does not. -/
def Releases {β : Type} (op : Op κ β) (w : World κ σ π) : Prop := strands op w = false

instance {β : Type} (op : Op κ β) (w : World κ σ π) : Decidable (Releases op w) := inferInstanceAs (Decidable (_ = false))

variable {β : Type}

theorem handing_applyOp (op : Op κ β) (hsound : Sound (core w)) (h : Handing (core w)) (hgood : Releases op w) :
    Handing (core (w.applyOp op).2) := by
  have hall := permits_all op w
  refine h.takes hsound (takes_applyOp op { hall with handed := fun c hc => ?_ })
  cases op
  case handOver index =>
    have hgood : strands (.handOver index : Op κ Unit) w = false := hgood
    rw [strands, hc] at hgood
    simp only [Option.any_some, Bool.or_eq_false_iff, decide_eq_false_iff_not] at hgood
    exact not_or.mpr hgood
  all_goals cases hc

theorem progress_applyOp (op : Op κ β) : (w.applyOp op).2.history.abandoned = w.history.abandoned ∧
    (w.applyOp op).2.history.progress.passing = (match op with
      | .keys => w.history.abandoned
      | _ => w.history.progress.passing) ∧
    (w.applyOp op).2.history.progress.served = (match op with
      | .rearm => w.history.progress.passing
      | _ => w.history.progress.served) := by
  have hquiet : QuicEndpointSteps.advances op = false → _ := quiet_applyOp (w := w)
  cases op
  case await => exact ⟨rfl, rfl, rfl⟩
  case drainDials => exact ⟨rfl, rfl, rfl⟩
  case pollRecv => exact ⟨rfl, rfl, rfl⟩
  case keys => exact ⟨rfl, rfl, rfl⟩
  case rearm =>
    have hcore := core_rearm w
    have hpassing := congrArg (fun s => s.progress.passing) hcore
    exact ⟨congrArg Core.abandoned hcore, hpassing, hpassing⟩
  case failDials error =>
    have hcore := core_failEach { w with endpoint := { w.endpoint with dials := [] } } w.endpoint.dials error
    have hpassing := congrArg (fun s => s.progress.passing) hcore
    have hserved := congrArg (fun s => s.progress.served) hcore
    exact ⟨congrArg Core.abandoned hcore, hpassing, hserved⟩
  all_goals
    obtain ⟨habandoned, hprogress⟩ := hquiet rfl
    exact ⟨habandoned, congrArg Progress.passing hprogress, congrArg Progress.served hprogress⟩

theorem untracked_applyOp (op : Op κ β) (hlt : c < w.created) (hdialled : dialledBy op w ≠ some c)
    (h : ∀ (i : ℕ) (tracked : Tracked κ), w.driver.connections[i]? = some tracked → tracked.shared ≠ c) :
    ∀ (i : ℕ) (tracked : Tracked κ), (w.applyOp op).2.driver.connections[i]? = some tracked → tracked.shared ≠ c := by
  rintro i tracked hi rfl
  rcases (grows_applyOp op).entries i tracked hi with ⟨old, hold, heq⟩ | ⟨-, hnew | hnew⟩
  · exact h i old hold heq
  · exact hdialled hnew
  · exact absurd hlt hnew.not_gt

omit [Socket σ] in
theorem served_of_releases {op : Op κ β} (hgood : Releases op w) (hc : c ∈ w.history.progress.served) :
    dialledBy op w ≠ some c := by
  intro hdialled
  cases op
  case dial =>
    have hgood : strands (.dial : Op κ Unit) w = false := hgood
    simp [strands, hdialled, hc] at hgood
  all_goals cases hdialled

variable {k : Sweep}

omit [Socket σ] in
theorem isDone_of_passing (hhanding : Handing (core w)) (hpassed : Passed w k) (hgood : Releases (.isDone i : Op κ Bool) w)
    (htracked : w.driver.connections[i]? = some tracked) (hpassing : tracked.shared ∈ w.history.progress.passing) :
    w.isDone i = true := by
  have habandoned := hpassed.passing _ hpassing
  rw [World.isDone, htracked]
  cases hconn : tracked.conn with
  | some conn =>
    have hgood : strands (.isDone i : Op κ Bool) w = false := hgood
    rw [strands, connAt_eq htracked hconn] at hgood
    simp only [hpassing, decide_true, Bool.true_and, Bool.not_eq_false', isOver, hconn, Option.any_some] at hgood
    simpa only [hconn, Bool.or_comm] using hgood
  | none =>
    have hterminal : (w.shareds tracked.shared).terminal = true := hhanding.terminal _ habandoned
    have hnone : (w.shareds tracked.shared).hasOutbound = false := (hhanding.claimed _ (.inr (.inr habandoned))).2.1
    simp [hconn, hterminal, hnone]

theorem left_applyOp (op : Op κ β) {todo dead : List ℕ} (hhanding : Handing (core w)) (h : Passed w k)
    (hgood : Releases op w) (hk : nextSweep k op (w.applyOp op).1 = .sweeping todo dead)
    (htracked : (w.applyOp op).2.driver.connections[i]? = some tracked)
    (hpassing : tracked.shared ∈ (w.applyOp op).2.history.progress.passing) : i ∈ todo ∨ i ∈ dead := by
  cases k with
  | stopping => cases hk
  | working =>
    cases op
    case keys =>
      cases hk
      exact .inl (mem_keys htracked)
    all_goals cases hk
  | sweeping todo' dead' =>
    cases op
    case keys =>
      cases hk
      exact .inl (mem_keys htracked)
    case isDone index =>
      obtain ⟨rfl, rfl⟩ := Sweep.sweeping.inj hk
      have hold := h.left todo' dead' rfl i tracked htracked hpassing
      by_cases hi : i = index
      · subst hi
        have hdone : w.isDone i = true := isDone_of_passing hhanding h hgood htracked hpassing
        rw [show (w.applyOp (.isDone i)).1 = true from hdone, if_pos rfl]
        exact .inr List.mem_cons_self
      · refine hold.imp (fun htodo => (List.mem_erase_of_ne hi).mpr htodo) fun hdead => ?_
        split
        · exact List.mem_cons_of_mem _ hdead
        · exact hdead
    case remove index =>
      obtain ⟨rfl, rfl⟩ := Sweep.sweeping.inj hk
      obtain ⟨hne, hold⟩ := tracked_remove htracked
      exact (h.left todo' dead' rfl i tracked hold hpassing).imp_right fun hdead => (List.mem_erase_of_ne hne).mpr hdead
    all_goals cases hk

theorem passed_applyOp (op : Op κ β) (hhanding : Handing (core w)) (h : Passed w k)
    (hgood : Releases op w) (hallowed : allowsSweep k op) : Passed (w.applyOp op).2 (nextSweep k op (w.applyOp op).1) := by
  obtain ⟨habandoned, hpassing, hserved⟩ := progress_applyOp (w := w) op
  have hbelow : ∀ c ∈ w.history.abandoned, c < w.created :=
    fun c hc => hhanding.below c (hhanding.claimed c (.inr (.inr hc))).1
  -- What was served stays untracked, whatever the operation.
  have hold : ∀ c ∈ w.history.progress.served, c ∈ w.history.abandoned ∧ ∀ (i : ℕ) (tracked : Tracked κ),
      (w.applyOp op).2.driver.connections[i]? = some tracked → tracked.shared ≠ c := by
    intro c hc
    obtain ⟨hmem, huntracked⟩ := h.served c hc
    exact ⟨hmem, untracked_applyOp op (hbelow c hmem) (served_of_releases hgood hc) huntracked⟩
  refine ⟨fun c hc => ?_, fun c hc => ?_, fun todo dead hk i tracked hi hmem => left_applyOp op hhanding h hgood hk hi hmem⟩
  · rw [hpassing] at hc
    rw [habandoned]
    split at hc
    · exact hc
    · exact h.passing c hc
  · rw [hserved] at hc
    rw [habandoned]
    cases op
    case rearm =>
      have hk : k = .sweeping [] [] := by
        cases k
        all_goals exact hallowed
      have hmem := h.passing c hc
      refine ⟨hmem, untracked_applyOp .rearm (hbelow c hmem) nofun fun i tracked hi heq => ?_⟩
      rcases h.left [] [] hk i tracked hi (heq ▸ hc) with hnil | hnil
      all_goals cases hnil
    all_goals exact hold c hc

omit [Transport κ] [Socket σ] [Platform π κ] in
theorem abandoned_act (action : Action) (hc : c ∈ w.history.abandoned) : c ∈ (w.act action).history.abandoned := by
  by_cases hsettles : settles action = false
  · have hclaims : (w.act action).history.abandoned = w.history.abandoned := (sameClaims_act hsettles).abandoned
    exact hclaims ▸ hc
  cases action
  case connect remote serverName detach =>
    have hclaims : (w.connect remote serverName detach).history.abandoned = w.history.abandoned :=
      (claims_connect w remote serverName detach).2.2.2.2.2.1
    exact hclaims.symm ▸ hc
  case markAbandoned d =>
    rw [World.act, World.markAbandoned]
    split
    · exact List.mem_cons_of_mem _ hc
    · exact hc
  case collect key =>
    rw [World.act, World.collect]
    repeat' split
    all_goals exact hc
  case giveUp d =>
    rw [World.act, World.giveUp]
    split
    all_goals exact hc
  case abandon d =>
    rw [World.act, World.abandon]
    dsimp only
    repeat' split
    all_goals exact hc
  case dropDetached d => exact hc
  all_goals exact (hsettles rfl).elim

omit [Transport κ] [Socket σ] [Platform π κ] in
theorem passed_act (action : Action) (h : Passed w k) : Passed (w.act action) k := by
  have hact : HandleStep (fun _ => True) w (w.act action) := handleStep_act action fun _ _ => True.intro
  refine ⟨fun c hc => ?_, fun c hc => ?_, fun todo dead hk i tracked hi hmem => ?_⟩
  · rw [hact.progress] at hc
    exact abandoned_act action (h.passing c hc)
  · rw [hact.progress] at hc
    obtain ⟨hmem, huntracked⟩ := h.served c hc
    exact ⟨abandoned_act action hmem, fun i tracked hi => huntracked i tracked (hact.driver ▸ hi)⟩
  · rw [hact.driver] at hi
    rw [hact.progress] at hmem
    exact h.left todo dead hk i tracked hi hmem

/-- Behind a service pass no entry is left of a connection that was given up before it. -/
def PassForgets {β : Type} (op : Op κ β) (w : World κ σ π) : Prop :=
  match op with
  | .rearm => ∀ c ∈ w.history.progress.passing, Forgotten w c
  | _ => True

/-- Nor is one made later. -/
def Forgets (w : World κ σ π) : Prop := ∀ c ∈ w.history.progress.served, Forgotten w c

/-- A waiter with a key collects the connection that it has asked for, and an acceptor one that a peer has. -/
def CollectsOwn (w : World κ σ π) : Prop := ∀ key d, w.ready.find? (·.key = key) = some d →
  (key = none ∧ d.shared ∉ w.history.dialled) ∨ (key = some d.shared ∧ d.shared ∈ w.history.dialled)

omit [Transport κ] [Socket σ] [Platform π κ] in
theorem collectsOwn_of_handing (h : Handing (core w)) : CollectsOwn w := by
  intro key d hfind
  have hkey : d.key = key := by simpa using List.find?_some hfind
  obtain ⟨hlt, -, hdetach, hkind⟩ := h.ready d (List.mem_of_find?_eq_some hfind)
  have hkinds := h.kinds _ hlt hdetach
  rw [← hkind] at hkinds
  rw [Detached.key] at hkey
  split at hkey
  · rename_i hacceptor
    exact .inl ⟨hkey.symm, hkinds.mp hacceptor⟩
  · rename_i hacceptor
    exact .inr ⟨hkey.symm, by_contra fun hnot => hacceptor (hkinds.mpr hnot)⟩

omit [Transport κ] [Socket σ] [Platform π κ] in
theorem passForgets_of_passed {op : Op κ β} (hhanding : Handing (core w)) (hpassed : Passed w k)
    (hallowed : allowsSweep k op) : PassForgets op w := by
  cases op
  case rearm =>
    have hk : k = .sweeping [] [] := by
      cases k
      all_goals exact hallowed
    intro c hc
    refine ⟨hhanding.givenUp c (.inr (hpassed.passing c hc)), fun i tracked hi heq => ?_⟩
    rcases hpassed.left [] [] hk i tracked hi (heq ▸ hc) with hnil | hnil
    all_goals cases hnil
  all_goals exact True.intro

/-- In every run in which the driver keeps nothing that no one is going to collect, a connect that was given up
leaves nothing behind, and whoever collects a connection collects one of its own. -/
theorem forgotten_reached
    (h : (endpoint (κ := κ) config fuel).Careful (built socket platform detachable) Releases (fun _ _ => True) choices) :
    ((endpoint (κ := κ) config fuel).reached (built socket platform detachable) choices).Next PassForgets ∧
      Forgets ((endpoint (κ := κ) config fuel).reached (built socket platform detachable) choices).state ∧
        CollectsOwn ((endpoint (κ := κ) config fuel).reached (built socket platform detachable) choices).state := by
  have hinit : Handing (core (built socket platform detachable : World κ σ π)) := by
    constructor
    all_goals simp [core, built, Claimed, GivenUp]
  have hpassed : Passed (built socket platform detachable : World κ σ π) .working := by
    constructor
    all_goals simp [built]
  have hadheres : Adheres sweep (fun w k => Handing (core w) ∧ Passed w k) (fun _ => True) (fun _ => True) (fun _ _ => True) _ :=
    adheres_of_follows (conduct config fuel)
      (fun op w k hk hgood hallowed => ⟨True.intro, handing_applyOp op hgood.2.1 hk.1 hgood.1,
        passed_applyOp op hk.1 hk.2 hgood.1 hallowed⟩)
      (fun action w k hk _ => ⟨handing_act action hk.1, passed_act action hk.2⟩)
      ⟨hinit, hpassed⟩
      (Follows.mono (follows_run config fuel fuel (by rintro ⟨⟩)) (fun _ _ h => h) fun _ _ h => ⟨h, h⟩) (careful_ended h)
  constructor
  · refine hadheres.next.mono fun op w hnext => ?_
    obtain ⟨k, hk, hallowed⟩ := hnext
    exact passForgets_of_passed hk.1 hk.2 hallowed
  · obtain ⟨k, ⟨hhanding, hpassed⟩, -⟩ := hadheres
    refine ⟨fun c hc => ?_, collectsOwn_of_handing hhanding⟩
    obtain ⟨habandoned, huntracked⟩ := hpassed.served c hc
    exact ⟨hhanding.givenUp c (.inr habandoned), huntracked⟩

end Runs

/-! ## A connect that is given up before it is established -/

/-- A connect is given up when the driver has taken so many steps, and goes on to take some more. -/
def givenUp (before after : ℕ) : InterleavedPrograms.Config (Op ScriptedConn) Error Unit ScriptedWorld :=
  (scripted {}).reached
    (built { arriving := [([5], 0)] } { conns := [{ reads := [(.ok .processed, [.observe .handshakeCompleted])], scids := [[5]] }] } true)
    ([.other (.connect 0 none true), .other (.pushDial 0)] ++ List.replicate before .own ++
      [.other (.abandon 0), .other (.markAbandoned 0)] ++ List.replicate after .own)

/-- A connect that is given up before its handshake is complete is handed over to no one. -/
theorem givenUp_stranded : ¬ ((givenUp 1 22).Next PassForgets ∧ Forgets (givenUp 1 22).state ∧
    CollectsOwn (givenUp 1 22).state) := by
  intro h
  have hserved : 0 ∈ (givenUp 1 22).state.history.progress.served := by decide +kernel
  have hready : (givenUp 1 22).state.ready.any (·.shared = 0) = true := by decide +kernel
  obtain ⟨d, hd, hshared⟩ := List.any_eq_true.mp hready
  exact (h.2.1 0 hserved).1 d hd (of_decide_eq_true hshared)

/-- One that is given up when its connection waits in the queue is not. -/
theorem forgotten_reached_queued : (givenUp 15 8).Next PassForgets ∧ Forgets (givenUp 15 8).state ∧
    CollectsOwn (givenUp 15 8).state := by
  refine forgotten_reached ?_
  apply careful_of_carefulFrom
  decide +kernel

end Ngnet.QuicDetaching
