import Ngnet.PoolSingleFlight

/-!
# A shutdown that has completed

Every connection is somewhere until its driver task has ended: with the caller that has dialled it, filed with the
pool, or with the drain. The drain takes them over when the last call has left, and no call enters behind it.
-/

namespace Ngnet.OriginPool
open ListUpdates

variable {ο ε : Type}

/-- What a drain has taken over and not finished with: slots, and drivers. -/
def Drain.left : Drain → Option (List ℕ × List ℕ)
  | .waiting | .taking => none
  | .winding slots drivers => some (slots, drivers)
  | .awaiting drivers => some ([], drivers)
  | .done => some ([], [])

/-- A caller has the connection in hand, and has not filed its driver. -/
def Carried (pool : Pool ο ε) (conn : ℕ) : Prop :=
  ∃ (i : ℕ) (c : Caller ο ε) (s number : ℕ), pool.callers[i]? = some c ∧ c.stage = .connected s number conn

/-- Where the slots and the connections are before a drain takes them over. -/
structure Held (pool : Pool ο ε) : Prop where
  slots : ∀ s < pool.slots.length, ∃ origin, (origin, s) ∈ pool.connections
  conns : ∀ c < pool.conns.length, (pool.conn c).ended = true ∨ c ∈ pool.drivers ∨ Carried pool c

/-- Where they are behind it. -/
structure Taken (pool : Pool ο ε) (slots drivers : List ℕ) : Prop where
  slots : ∀ s ∉ slots, (pool.slot s).state = .idle
  conns : ∀ c < pool.conns.length, (pool.conn c).ended = true ∨ c ∈ drivers

structure Closing (pool : Pool ο ε) : Prop where
  one : pool.drains.length + pool.shutdowns.count .elected = if pool.closed then 1 else 0
  begun : ∀ shutdown ∈ pool.shutdowns, shutdown ≠ .calling → pool.closed = true
  resolved : Shutdown.resolved ∈ pool.shutdowns → pool.finished = true
  finished : pool.finished = true → Drain.done ∈ pool.drains
  held : (∀ drain ∈ pool.drains, drain.left = none) → Held pool
  taken : ∀ drain ∈ pool.drains, ∀ slots drivers, drain.left = some (slots, drivers) → Taken pool slots drivers

/-! ## Behind the last call -/

section Idle
variable {pool : Pool ο ε}

theorem uncounted (h : Sound pool) (hzero : pool.acquires = 0) {i : ℕ} {c : Caller ο ε} (hc : pool.callers[i]? = some c) :
    c.stage = .entering ∨ ∃ result, c.stage = .over result := by
  have hcount := h.acquires
  rw [hzero] at hcount
  have hidle := List.countP_eq_zero.mp hcount.symm c (List.mem_of_getElem? hc)
  cases hstage : c.stage with
  | entering => exact .inl rfl
  | «over» result => exact .inr ⟨result, rfl⟩
  | _ => simp [hstage, Stage.counted] at hidle

theorem not_carried (h : Sound pool) (hzero : pool.acquires = 0) (conn : ℕ) : ¬ Carried pool conn := by
  rintro ⟨i, c, s, number, hc, hstage⟩
  rcases uncounted h hzero hc with hentering | ⟨result, hover⟩
  · rw [hstage] at hentering
    cases hentering
  · rw [hstage] at hover
    cases hover

theorem advance_closed [DecidableEq ο] (h : Sound pool) (hzero : pool.acquires = 0) (hclosed : pool.closed = true) (i : ℕ) :
    pool.advance i = pool ∨ pool.advance i = pool.move i (.over (some (.error .shutDown))) ∧
      ∀ c, pool.callers[i]? = some c → c.stage = .entering := by
  rw [Pool.advance]
  split
  · exact .inl rfl
  · rename_i c hc
    rcases uncounted h hzero hc with hentering | ⟨result, hover⟩
    · rw [hentering]
      refine .inr ⟨by simp [Pool.register, hclosed], fun c' hc' => ?_⟩
      rw [hc] at hc'
      cases hc'
      exact hentering
    · rw [hover]
      exact .inl rfl

theorem connect_closed (h : Sound pool) (hzero : pool.acquires = 0) (i : ℕ) (outcome : Except ε Unit) :
    pool.connect i outcome = pool := by
  rw [Pool.connect]
  split
  · rfl
  · rename_i c hc
    rcases uncounted h hzero hc with hentering | ⟨result, hover⟩
    · rw [hentering]
    · rw [hover]

theorem cancel_closed (h : Sound pool) (hzero : pool.acquires = 0) (i : ℕ) : pool.cancel i = pool := by
  rw [Pool.cancel]
  split
  · rfl
  · rename_i c hc
    rcases uncounted h hzero hc with hentering | ⟨result, hover⟩
    · rw [hentering]
    · rw [hover]

end Idle

/-! ## Before the drain -/

section Held
variable {pool pool' : Pool ο ε}

/-- A connection is as much ended as it was. -/
def Ages (pool pool' : Pool ο ε) : Prop :=
  pool'.conns.length = pool.conns.length ∧ ∀ c, (pool.conn c).ended = true → (pool'.conn c).ended = true

theorem Ages.refl (pool : Pool ο ε) : Ages pool pool := ⟨rfl, fun _ h => h⟩

theorem ages_modify {f : Conn → Conn} (hf : ∀ conn : Conn, conn.ended = true → (f conn).ended = true) (c : ℕ)
    (h : pool'.conns = pool.conns.modify c f) : Ages pool pool' := by
  refine ⟨by simp [h], fun d hd => ?_⟩
  rw [Pool.conn] at hd ⊢
  rw [h, List.getElem?_modify]
  cases hget : pool.conns[d]? with
  | none =>
    rw [hget] at hd
    cases hd
  | some conn =>
    rw [hget] at hd
    simp only [Option.map_eq_map, Option.map_some, Option.getD_some]
    split
    · exact hf _ hd
    · exact hd

theorem Held.mono (h : Held pool) (hages : Ages pool pool') (hslots : pool'.slots.length = pool.slots.length)
    (hconnections : ∀ e ∈ pool.connections, e ∈ pool'.connections)
    (hdrivers : ∀ c, c ∈ pool.drivers → (pool.conn c).ended = true ∨ c ∈ pool'.drivers)
    (hcarried : ∀ c, Carried pool c → Carried pool' c ∨ c ∈ pool'.drivers) : Held pool' where
  slots s hs := by
    rw [hslots] at hs
    obtain ⟨origin, horigin⟩ := h.slots s hs
    exact ⟨origin, hconnections _ horigin⟩
  conns c hc := by
    rw [hages.1] at hc
    rcases h.conns c hc with hended | hdriver | hcarry
    · exact .inl (hages.2 c hended)
    · rcases hdrivers c hdriver with hended | hdriver
      · exact .inl (hages.2 c hended)
      · exact .inr (.inl hdriver)
    · rcases hcarried c hcarry with hcarry | hdriver
      · exact .inr (.inr hcarry)
      · exact .inr (.inl hdriver)

variable {i : ℕ} {c : Caller ο ε} {stage : Stage ε}

theorem carried_move (hc : pool.callers[i]? = some c)
    (hstage : ∀ s number conn, c.stage ≠ .connected s number conn) {conn : ℕ} (h : Carried pool conn)
    (hcallers : pool'.callers = pool.callers) : Carried (pool'.move i stage) conn := by
  obtain ⟨j, c', s, number, hc', hconnected⟩ := h
  have hij : i ≠ j := by
    rintro rfl
    rw [hc] at hc'
    cases hc'
    exact hstage s number conn hconnected
  exact ⟨j, c', s, number, by simp [Pool.move, hij, hcallers, hc'], hconnected⟩

variable {s : ℕ}

theorem carried_settle {conn : ℕ} {state : Dial ε} (h : Carried pool conn) : Carried (pool.settle s state) conn := by
  obtain ⟨j, c, t, number, hc, hconnected⟩ := h
  exact ⟨j, { c with stage := c.stage.ring s }, t, number, by rw [settle_get, hc]; rfl, by simp [hconnected, Stage.ring]⟩

theorem Held.moved (h : Held pool) (hc : pool.callers[i]? = some c)
    (hstage : ∀ s number conn, c.stage ≠ .connected s number conn) (hages : Ages pool pool')
    (hslots : pool'.slots.length = pool.slots.length) (hconnections : pool'.connections = pool.connections)
    (hdrivers : pool'.drivers = pool.drivers) (hcallers : pool'.callers = pool.callers) :
    Held (pool'.move i stage) := by
  refine h.mono hages hslots (fun e he => ?_) (fun d hd => ?_) (fun d hd => .inl (carried_move hc hstage hd hcallers))
  · rw [move_connections, hconnections]
    exact he
  · exact .inr (hdrivers ▸ hd)

theorem Held.settled (h : Held pool) {state : Dial ε}
    (hc : pool.callers[i]? = some c) (hstage : ∀ s number conn, c.stage ≠ .connected s number conn) :
    Held ((pool.settle s state).move i stage) := by
  refine h.mono (.refl _) (by simp [Pool.move, Pool.settle]) (fun _ he => he) (fun _ hd => .inr hd) ?_
  intro conn hcarried
  refine .inl (carried_move (c := { c with stage := c.stage.ring s }) ?_ ?_ (carried_settle hcarried) rfl)
  · rw [settle_get, hc]
    rfl
  · intro t number conn' hconnected
    cases hring : c.stage with
    | connected t number conn => exact hstage t number conn hring
    | _ => simp [hring, Stage.ring] at hconnected

theorem Held.claimed (h : Held pool) {waited : Bool} (hc : pool.callers[i]? = some c)
    (hstage : c.stage = .deciding s waited) : Held (pool.claim i s waited) := by
  refine h.mono (.refl _) (by simp [Pool.claim]) (fun _ he => he) (fun _ hd => .inr hd) ?_
  rintro conn ⟨j, c', t, number, hc', hconnected⟩
  have hij : i ≠ j := by
    rintro rfl
    rw [hc, Option.some.injEq] at hc'
    rw [← hc', hstage] at hconnected
    cases hconnected
  exact .inl ⟨j, c', t, number, by simp [Pool.claim, hij, hc'], hconnected⟩

section Advance
variable {i : ℕ} {c : Caller ο ε}

theorem held_slotFor [DecidableEq ο] (h : Held pool) (hc : pool.callers[i]? = some c) (hstage : c.stage = .registered) :
    Held (pool.slotFor i c.origin) := by
  have hnone : ∀ s number conn, c.stage ≠ .connected s number conn := by simp [hstage]
  rw [Pool.slotFor]
  split
  · exact h.moved hc hnone (.refl _) rfl rfl rfl rfl
  · split
    · exact h.moved hc hnone (.refl _) rfl rfl rfl rfl
    · constructor
      · intro s hs
        by_cases hnew : s = pool.slots.length
        · subst hnew
          exact ⟨c.origin, List.mem_append_right _ (List.mem_singleton_self _)⟩
        · obtain ⟨origin, horigin⟩ := h.slots s (by simp [Pool.move] at hs; omega)
          exact ⟨origin, List.mem_append_left _ horigin⟩
      · intro d hd
        exact (h.conns d hd).imp_right (Or.imp_right fun hcarried => carried_move hc hnone hcarried rfl)

variable {s : ℕ}

theorem held_decide (h : Held pool) (hc : pool.callers[i]? = some c) {waited : Bool}
    (hstage : c.stage = .deciding s waited) : Held (pool.decide i s waited) := by
  have hnone : ∀ s number conn, c.stage ≠ .connected s number conn := by simp [hstage]
  rw [Pool.decide]
  split
  · split
    · exact h.claimed hc hstage
    · exact h.moved hc hnone (.refl _) rfl rfl rfl rfl
  · split
    · exact h.moved hc hnone (.refl _) rfl rfl rfl rfl
    · exact h.claimed hc hstage
  · exact h.claimed hc hstage
  · refine h.mono (.refl _) rfl (fun _ he => he) (fun _ hd => .inr hd) ?_
    rintro conn ⟨j, c', t, number, hc', hconnected⟩
    have hij : i ≠ j := by
      rintro rfl
      rw [hc] at hc'
      cases hc'
      exact hnone t number conn hconnected
    exact .inl ⟨j, c', t, number, by simp [hij, hc'], hconnected⟩

theorem held_file (h : Held pool) (hc : pool.callers[i]? = some c) {number conn : ℕ}
    (hstage : c.stage = .connected s number conn) : Held (pool.file i s number conn) := by
  refine h.mono (.refl _) rfl (fun _ he => he) ?_ ?_
  · intro d hd
    cases hended : (pool.conn d).ended with
    | true => exact .inl rfl
    | false => exact .inr (List.mem_append_left _ (List.mem_filter.mpr ⟨hd, by simp [hended]⟩))
  · rintro d ⟨j, c', t, number', hc', hconnected⟩
    by_cases hij : i = j
    · subst hij
      rw [hc] at hc'
      cases hc'
      rw [hstage] at hconnected
      cases hconnected
      exact .inr (List.mem_append_right _ (List.mem_singleton_self _))
    · exact .inl ⟨j, c', t, number', by simp [Pool.file, Pool.move, hij, hc'], hconnected⟩

theorem held_publish (h : Held pool) (hc : pool.callers[i]? = some c) {number conn : ℕ} {closed : Bool}
    (hstage : c.stage = .filed s number conn closed) : Held (pool.publish i s conn closed) := by
  have hnone : ∀ s number conn, c.stage ≠ .connected s number conn := by simp [hstage]
  rw [Pool.publish]
  split
  · have hpool : Held (pool.shutDownConn conn) :=
      h.mono (ages_modify (f := fun conn => { conn with isRefusing := true }) (fun _ hended => hended) conn rfl) rfl (fun _ he => he) (fun _ hd => .inr hd)
        (fun _ hcarried => .inl hcarried)
    exact hpool.settled hc hnone
  · exact h.settled hc hnone

theorem held_advance [DecidableEq ο] (h : Held pool) (i : ℕ) : Held (pool.advance i) := by
  rw [Pool.advance]
  split
  · exact h
  rename_i c hc
  cases hstage : c.stage with
  | entering =>
    show Held (pool.register i)
    rw [Pool.register]
    split
    · exact h.moved hc (by simp [hstage]) (.refl _) rfl rfl rfl rfl
    · exact h.moved hc (by simp [hstage]) (.refl _) rfl rfl rfl rfl
  | registered => exact held_slotFor h hc hstage
  | deciding s waited => exact held_decide h hc hstage
  | told s g => exact h.moved hc (by simp [hstage]) (.refl _) rfl rfl rfl rfl
  | subscribed s g =>
    show Held (pool.look i s g)
    rw [Pool.look]
    split
    · exact h.moved hc (by simp [hstage]) (.refl _) rfl rfl rfl rfl
    · exact h.moved hc (by simp [hstage]) (.refl _) rfl rfl rfl rfl
  | parked s g woken =>
    dsimp only
    split
    · rw [Pool.look]
      split
      · exact h.moved hc (by simp [hstage]) (.refl _) rfl rfl rfl rfl
      · exact h.moved hc (by simp [hstage]) (.refl _) rfl rfl rfl rfl
    · exact h
  | connecting s d => exact h
  | connected s d conn => exact held_file h hc hstage
  | filed s d conn closed => exact held_publish h hc hstage
  | failing s d cause => exact h.settled hc (by simp [hstage])
  | dropping s d => exact h.settled hc (by simp [hstage])
  | leaving result => exact h.moved hc (by simp [hstage]) (.refl _) rfl rfl rfl rfl
  | «over» result => exact h

theorem held_connect (h : Held pool) (i : ℕ) (outcome : Except ε Unit) : Held (pool.connect i outcome) := by
  rw [Pool.connect]
  split
  · exact h
  rename_i c hc
  split
  · rename_i s d hstage
    have hnone : ∀ s number conn, c.stage ≠ .connected s number conn := by simp [hstage]
    constructor
    · exact h.slots
    · intro d' hd'
      by_cases hnew : d' = pool.conns.length
      · subst hnew
        exact .inr (.inr ⟨i, { c with stage := .connected s d pool.conns.length }, s, d, by simp [Pool.move, hc], rfl⟩)
      · have hlt : d' < pool.conns.length := by
          simp [Pool.move] at hd'
          omega
        have hsame : ({ pool with conns := pool.conns ++ [({} : Conn)] } : Pool ο ε).conn d' = pool.conn d' := by
          rw [Pool.conn, List.getElem?_append_left hlt]
          rfl
        rcases h.conns d' hlt with hended | hdriver | hcarried
        · exact .inl (by rw [← hsame] at hended; exact hended)
        · exact .inr (.inl hdriver)
        · exact .inr (.inr (carried_move hc hnone hcarried rfl))
  · rename_i s d cause hstage
    exact h.moved hc (by simp [hstage]) (.refl _) rfl rfl rfl rfl
  · exact h

theorem held_cancel (h : Held pool) (i : ℕ) : Held (pool.cancel i) := by
  rw [Pool.cancel]
  split
  · exact h
  rename_i c hc
  split
  · rename_i hstage
    exact h.moved hc (by simp [hstage]) (.refl _) rfl rfl rfl rfl
  · rename_i hstage
    exact h.moved hc (by simp [hstage]) (.refl _) rfl rfl rfl rfl
  · exact h

end Advance

end Held

/-! ## The drain -/

section Closing
variable {pool pool' : Pool ο ε}

theorem Taken.mono {slots slots' drivers drivers' : List ℕ} (h : Taken pool slots drivers) (hages : Ages pool pool')
    (hslots : ∀ s ∉ slots', s ∉ slots ∧ pool'.slot s = pool.slot s ∨ (pool'.slot s).state = .idle)
    (hdrivers : ∀ c ∈ drivers, (pool.conn c).ended = true ∨ c ∈ drivers') : Taken pool' slots' drivers' where
  slots s hs := by
    rcases hslots s hs with ⟨hold, hsame⟩ | hidle
    · rw [hsame]
      exact h.slots s hold
    · exact hidle
  conns c hc := by
    rw [hages.1] at hc
    rcases h.conns c hc with hended | hdriver
    · exact .inl (hages.2 c hended)
    · exact (hdrivers c hdriver).imp_left (hages.2 c)

theorem Taken.frame {slots drivers : List ℕ} (h : Taken pool slots drivers) (hages : Ages pool pool')
    (hslots : pool'.slots = pool.slots) : Taken pool' slots drivers :=
  h.mono hages (fun s hs => .inl ⟨hs, by rw [Pool.slot, hslots, Pool.slot]⟩) (fun _ hc => .inr hc)

variable {drain : Drain}

theorem closed_of_drain (hquiet : Quiet pool) (h : drain ∈ pool.drains) : pool.closed = true := by
  cases hclosed : pool.closed with
  | true => rfl
  | false =>
    rw [(hquiet.opened hclosed).1] at h
    cases h

theorem Closing.only (h : Closing pool) (hquiet : Quiet pool) (hdrain : drain ∈ pool.drains) :
    pool.drains = [drain] := by
  have hone := h.one
  rw [closed_of_drain hquiet hdrain, if_pos rfl] at hone
  have hpos := List.length_pos_of_mem hdrain
  obtain ⟨only, honly⟩ := List.length_eq_one_iff.mp (by omega : pool.drains.length = 1)
  rw [honly] at hdrain ⊢
  rw [List.mem_singleton.mp hdrain]

theorem Closing.aside (h : Closing pool) (haside : Aside pool pool') (hheld : Held pool → Held pool')
    (htaken : ∀ slots drivers, (∃ drain ∈ pool.drains, drain.left = some (slots, drivers)) →
      Taken pool slots drivers → Taken pool' slots drivers) : Closing pool' where
  one := by
    rw [haside.drains, haside.shutdowns, haside.closed]
    exact h.one
  begun := by
    rw [haside.shutdowns, haside.closed]
    exact h.begun
  resolved := by
    rw [haside.shutdowns, haside.finished]
    exact h.resolved
  finished := by
    rw [haside.finished, haside.drains]
    exact h.finished
  held := by
    rw [haside.drains]
    exact fun hnone => hheld (h.held hnone)
  taken := by
    rw [haside.drains]
    exact fun drain hdrain slots drivers hleft =>
      htaken slots drivers ⟨drain, hdrain, hleft⟩ (h.taken drain hdrain slots drivers hleft)

theorem closing_advance [DecidableEq ο] (h : Closing pool) (hsound : Sound pool) (hquiet : Quiet pool) (i : ℕ) :
    Closing (pool.advance i) := by
  refine h.aside (aside_advance pool i) (fun hheld => held_advance hheld i) ?_
  · rintro slots drivers ⟨drain, hdrain, hleft⟩ htaken
    have hzero := hquiet.calm drain hdrain (by rintro rfl; cases hleft)
    rcases advance_closed hsound hzero (closed_of_drain hquiet hdrain) i with hsame | ⟨hover, -⟩
    · rw [hsame]
      exact htaken
    · rw [hover]
      exact htaken.frame (.refl _) rfl

theorem closing_connect (h : Closing pool) (hsound : Sound pool) (hquiet : Quiet pool) (i : ℕ)
    (outcome : Except ε Unit) : Closing (pool.connect i outcome) := by
  refine h.aside (aside_connect pool i outcome) (fun hheld => held_connect hheld i outcome) ?_
  · rintro slots drivers ⟨drain, hdrain, hleft⟩ htaken
    rw [connect_closed hsound (hquiet.calm drain hdrain (by rintro rfl; cases hleft))]
    exact htaken

theorem closing_cancel (h : Closing pool) (hsound : Sound pool) (hquiet : Quiet pool) (i : ℕ) :
    Closing (pool.cancel i) := by
  refine h.aside (aside_cancel pool i) (fun hheld => held_cancel hheld i) ?_
  · rintro slots drivers ⟨drain, hdrain, hleft⟩ htaken
    rw [cancel_closed hsound (hquiet.calm drain hdrain (by rintro rfl; cases hleft))]
    exact htaken

theorem closing_conns (h : Closing pool) {f : Conn → Conn} (hf : ∀ conn : Conn, conn.ended = true → (f conn).ended = true)
    (c : ℕ) : Closing { pool with conns := pool.conns.modify c f } := by
  have hages : Ages pool { pool with conns := pool.conns.modify c f } := ages_modify hf c rfl
  refine h.aside ⟨rfl, rfl, rfl, rfl, .same rfl rfl⟩ ?_ ?_
  · intro hheld
    exact hheld.mono hages rfl (fun _ he => he) (fun _ hd => .inr hd) (fun _ hcarried => .inl hcarried)
  · intro slots drivers _ htaken
    exact htaken.frame hages rfl

theorem count_set_elected {shutdowns : List Shutdown} {j : ℕ} {old : Shutdown} (h : shutdowns[j]? = some old)
    (new : Shutdown) :
    (shutdowns.set j new).count .elected + (if old = .elected then 1 else 0) =
      shutdowns.count .elected + if new = .elected then 1 else 0 := by
  obtain ⟨hj, rfl⟩ := List.getElem?_eq_some_iff.mp h
  have hpos : shutdowns[j] = .elected → 0 < shutdowns.count .elected :=
    fun heq => List.count_pos_iff.mpr (heq ▸ List.getElem_mem hj)
  rw [List.count_set hj]
  simp only [beq_iff_eq]
  split
  · rename_i heq
    have := hpos heq
    omega
  · omega

theorem Closing.shutdowns (h : Closing pool) {shutdowns : List Shutdown} {closed : Bool}
    (hone : pool.drains.length + shutdowns.count .elected = if closed then 1 else 0)
    (hbegun : ∀ shutdown ∈ shutdowns, shutdown ≠ .calling → closed = true)
    (hresolved : Shutdown.resolved ∈ shutdowns → pool.finished = true) :
    Closing { pool with closed, shutdowns } := by
  refine ⟨hone, hbegun, hresolved, h.finished, fun hnone => ?_, fun drain hdrain slots drivers hleft => ?_⟩
  · exact (h.held hnone).mono (.refl _) rfl (fun _ he => he) (fun _ hd => .inr hd) (fun _ hcarried => .inl hcarried)
  · exact (h.taken drain hdrain slots drivers hleft).frame (.refl _) rfl

theorem closing_advanceShutdown (h : Closing pool) (j : ℕ) : Closing (pool.advanceShutdown j) := by
  have hone := h.one
  rw [Pool.advanceShutdown]
  split
  · rename_i hget
    have hcount := count_set_elected hget
    refine h.shutdowns ?_ (fun _ _ _ => rfl) fun hmem => ?_
    · cases hclosed : pool.closed with
      | true =>
        have := hcount .waiting
        simp_all
      | false =>
        have := hcount .elected
        simp_all
    · rcases List.mem_or_eq_of_mem_set hmem with hmem | heq
      · exact h.resolved hmem
      · split at heq <;> cases heq
  · rename_i hget
    have hclosed := h.begun _ (List.mem_of_getElem? hget) (by rintro ⟨⟩)
    have hcount := count_set_elected hget .waiting
    have hnone : pool.drains = [] := by
      have hpos := List.count_pos_iff.mpr (List.mem_of_getElem? hget)
      rw [hclosed] at hone
      exact List.length_eq_zero_iff.mp (by simp at hone; omega)
    have hheld := h.held (by simp [hnone])
    constructor
    · show (pool.drains ++ [Drain.waiting]).length + (pool.shutdowns.set j .waiting).count .elected = _
      rw [hclosed] at hone ⊢
      simp at hcount hone ⊢
      omega
    · exact fun _ _ _ => hclosed
    · intro hmem
      rcases List.mem_or_eq_of_mem_set hmem with hmem | heq
      · exact h.resolved hmem
      · cases heq
    · intro hfinished
      exact List.mem_append_left _ (h.finished hfinished)
    · intro _
      exact hheld.mono (.refl _) rfl (fun _ he => he) (fun _ hd => .inr hd) (fun _ hcarried => .inl hcarried)
    · intro drain hdrain slots drivers hleft
      obtain rfl : drain = .waiting := by simpa [hnone] using hdrain
      cases hleft
  · rename_i hget
    split
    · rename_i hfinished
      have hclosed := h.begun _ (List.mem_of_getElem? hget) (by rintro ⟨⟩)
      have hcount := count_set_elected hget .resolved
      refine h.shutdowns ?_ (fun _ _ _ => hclosed) fun _ => hfinished
      simp at hcount
      rw [hcount]
      exact hone
    · exact h
  · exact h

theorem closing_cancelShutdown (h : Closing pool) (j : ℕ) : Closing (pool.cancelShutdown j) := by
  rw [Pool.cancelShutdown]
  split
  · rename_i hget
    have hclosed := h.begun _ (List.mem_of_getElem? hget) (by rintro ⟨⟩)
    have hcount := count_set_elected hget .dropped
    refine h.shutdowns ?_ (fun _ _ _ => hclosed) fun hmem => ?_
    · simp at hcount
      rw [hcount]
      exact h.one
    · rcases List.mem_or_eq_of_mem_set hmem with hmem | heq
      · exact h.resolved hmem
      · cases heq
  · exact h

theorem Closing.drains (h : Closing pool) (hquiet : Quiet pool) {k : ℕ} {drain' : Drain} (hget : pool.drains[k]? = some drain)
    (hdrains : pool'.drains = pool.drains.set k drain') (hshutdowns : pool'.shutdowns = pool.shutdowns)
    (hclosed : pool'.closed = pool.closed) (hfinished : pool'.finished = true ↔ drain' = .done)
    (hresolved : pool.finished = true → pool'.finished = true)
    (hheld : drain'.left = none → Held pool')
    (htaken : ∀ slots drivers, drain'.left = some (slots, drivers) → Taken pool' slots drivers) : Closing pool' := by
  have honly := h.only hquiet (List.mem_of_getElem? hget)
  have hk : k = 0 := by
    have hlt := (List.getElem?_eq_some_iff.mp hget).1
    rw [honly] at hlt
    simpa using hlt
  have hnew : pool'.drains = [drain'] := by
    rw [hdrains, honly, hk]
    rfl
  constructor
  · rw [hdrains, List.length_set, hshutdowns, hclosed]
    exact h.one
  · rw [hshutdowns, hclosed]
    exact h.begun
  · rw [hshutdowns]
    exact fun hmem => hresolved (h.resolved hmem)
  · intro hdone
    rw [hnew, hfinished.mp hdone]
    exact List.mem_singleton_self _
  · intro hnone
    exact hheld (hnone drain' (by rw [hnew]; exact List.mem_singleton_self _))
  · intro other hother slots drivers hleft
    rw [hnew] at hother
    obtain rfl := List.mem_singleton.mp hother
    exact htaken slots drivers hleft

theorem closing_advanceDrain (h : Closing pool) (hsound : Sound pool) (hquiet : Quiet pool) (k : ℕ) :
    Closing (pool.advanceDrain k) := by
  have hunfinished : ∀ {drain : Drain}, pool.drains[k]? = some drain → drain ≠ .done → pool.finished = false := by
    intro drain hget hdone
    by_contra hfinished
    have honly := h.only hquiet (h.finished (by simpa using hfinished))
    rw [honly] at hget
    exact hdone (List.mem_singleton.mp (List.mem_of_getElem? hget))
  have hheld : ∀ {drain : Drain}, pool.drains[k]? = some drain → drain.left = none → Held pool := by
    intro drain hget hnone
    refine h.held fun other hother => ?_
    rw [h.only hquiet (List.mem_of_getElem? hget)] at hother
    rw [List.mem_singleton.mp hother]
    exact hnone
  rw [Pool.advanceDrain]
  split
  · rename_i hget
    have hfinished := hunfinished hget (by rintro ⟨⟩)
    split
    · refine h.drains hquiet hget rfl rfl rfl (by simp [hfinished]) id (fun _ => ?_) (by rintro _ _ ⟨⟩)
      exact (hheld hget rfl).mono (.refl _) rfl (fun _ he => he) (fun _ hd => .inr hd)
        (fun _ hcarried => .inl hcarried)
    · exact h
  · rename_i hget
    have hfinished := hunfinished hget (by rintro ⟨⟩)
    refine h.drains hquiet hget rfl rfl rfl (by simp [hfinished]) id (by rintro ⟨⟩) ?_
    intro slots drivers hleft
    obtain ⟨rfl, rfl⟩ : pool.connections.map (·.2) = slots ∧ pool.drivers = drivers := by simpa [Drain.left] using hleft
    have hheld := hheld hget rfl
    constructor
    · intro s hs
      by_cases hlen : s < pool.slots.length
      · obtain ⟨origin, horigin⟩ := hheld.slots s hlen
        exact absurd (List.mem_map.mpr ⟨_, horigin, rfl⟩) hs
      · show (pool.slots[s]?.getD {}).state = .idle
        rw [List.getElem?_eq_none (Nat.le_of_not_lt hlen)]
        rfl
    · intro c hc
      refine (hheld.conns c hc).imp_right fun hsome => hsome.resolve_right ?_
      exact not_carried hsound (hquiet.calm _ (List.mem_of_getElem? hget) (by rintro ⟨⟩)) c
  · rename_i drivers hget
    have hfinished := hunfinished hget (by rintro ⟨⟩)
    refine h.drains hquiet hget rfl rfl rfl (by simp [hfinished]) id (by rintro ⟨⟩) ?_
    intro slots drivers' hleft
    obtain ⟨rfl, rfl⟩ : [] = slots ∧ drivers = drivers' := by simpa [Drain.left] using hleft
    exact (h.taken _ (List.mem_of_getElem? hget) _ _ rfl).frame (.refl _) rfl
  · rename_i d drivers hget
    have hfinished := hunfinished hget (by rintro ⟨⟩)
    split
    · rename_i hended
      refine h.drains hquiet hget rfl rfl rfl (by simp [hfinished]) id (by rintro ⟨⟩) ?_
      intro slots drivers' hleft
      obtain ⟨rfl, rfl⟩ : [] = slots ∧ drivers = drivers' := by simpa [Drain.left] using hleft
      refine (h.taken _ (List.mem_of_getElem? hget) _ _ rfl).mono (.refl _) (fun s hs => .inl ⟨hs, rfl⟩) ?_
      intro c hc
      rcases List.mem_cons.mp hc with rfl | hc
      · exact .inl hended
      · exact .inr hc
    · exact h
  · rename_i hget
    refine h.drains hquiet hget rfl rfl rfl (by simp) (fun _ => rfl) (by rintro ⟨⟩) ?_
    intro slots drivers hleft
    obtain ⟨rfl, rfl⟩ : [] = slots ∧ [] = drivers := by simpa [Drain.left] using hleft
    exact (h.taken _ (List.mem_of_getElem? hget) _ _ rfl).frame (.refl _) rfl
  · exact h

variable (pool) in
theorem ages_windDown (s : ℕ) : Ages pool (pool.windDown s) := by
  rw [Pool.windDown]
  split
  · rename_i c _
    exact ages_modify (f := fun conn => { conn with isRefusing := true }) (fun _ hended => hended) c rfl
  · exact .refl _

theorem closing_wind (h : Closing pool) (hquiet : Quiet pool) (k s : ℕ) : Closing (pool.wind k s) := by
  rw [Pool.wind]
  split
  · rename_i slots drivers hget
    split
    · have hfinished : pool.finished = false := by
        by_contra hfinished
        have honly := h.only hquiet (h.finished (by simpa using hfinished))
        rw [honly] at hget
        cases List.mem_singleton.mp (List.mem_of_getElem? hget)
      have htaken := h.taken _ (List.mem_of_getElem? hget) _ _ rfl
      have hages := ages_windDown pool s
      obtain ⟨conns, hwind⟩ := windDown_eq pool s
      rw [hwind] at hages ⊢
      refine h.drains hquiet hget rfl rfl rfl (by simp [hfinished]) id (by rintro ⟨⟩) ?_
      intro slots' drivers' hleft
      obtain ⟨rfl, rfl⟩ : slots.filter (· ≠ s) = slots' ∧ drivers = drivers' := by simpa [Drain.left] using hleft
      refine htaken.mono hages (fun t ht => ?_) (fun _ hc => .inr hc)
      have hslot := slot_modify s t (fun slot => { slot with state := .idle }) pool.slots
      rw [List.mem_filter, not_and, decide_eq_true_eq, not_not] at ht
      by_cases hst : t = s
      · subst hst
        refine .inr ?_
        show ((pool.slots.modify t _)[t]?.getD {}).state = .idle
        rw [hslot]
        split
        · rfl
        · rename_i hlen
          rw [List.getElem?_eq_none (by omega)]
          rfl
      · refine .inl ⟨fun hmem => hst (ht hmem), ?_⟩
        show (pool.slots.modify s _)[t]?.getD {} = pool.slot t
        rw [hslot, if_neg fun heq => hst heq.1.symm]
        rfl
    · exact h
  · exact h

end Closing

/-! ## Runs -/

section Runs
variable [DecidableEq ο]

variable {pool : Pool ο ε}

theorem closing_step (action : Action ο ε) (h : Closing pool) (hsound : Sound pool)
    (hquiet : Quiet pool) : Closing (step pool action) := by
  cases action with
  | call origin =>
    refine h.aside ⟨rfl, rfl, rfl, rfl, .same rfl rfl⟩ (fun hheld => ?_) (fun _ _ _ htaken => htaken.frame (.refl _) rfl)
    refine hheld.mono (.refl _) rfl (fun _ he => he) (fun _ hd => .inr hd) ?_
    rintro conn ⟨i, c, s, number, hc, hstage⟩
    refine .inl ⟨i, c, s, number, ?_, hstage⟩
    rw [step, List.getElem?_append_left (List.getElem?_eq_some_iff.mp hc).1]
    exact hc
  | advance i => exact closing_advance h hsound hquiet i
  | connect i outcome => exact closing_connect h hsound hquiet i outcome
  | cancel i => exact closing_cancel h hsound hquiet i
  | shutdown =>
    refine h.shutdowns ?_ (fun shutdown hmem hcalling => ?_) fun hmem => ?_
    · rw [List.count_append]
      exact h.one
    · rcases List.mem_append.mp hmem with hmem | hmem
      · exact h.begun shutdown hmem hcalling
      · exact absurd (List.mem_singleton.mp hmem) hcalling
    · rcases List.mem_append.mp hmem with hmem | hmem
      · exact h.resolved hmem
      · cases List.mem_singleton.mp hmem
  | advanceShutdown j => exact closing_advanceShutdown h j
  | cancelShutdown j => exact closing_cancelShutdown h j
  | advanceDrain k => exact closing_advanceDrain h hsound hquiet k
  | wind k s => exact closing_wind h hquiet k s
  | connClosed c =>
    exact closing_conns (f := fun conn => { conn with isClosed := true }) h (fun _ hended => hended) c
  | connRefuses c =>
    exact closing_conns (f := fun conn => { conn with isRefusing := true }) h (fun _ hended => hended) c
  | driverEnds c => exact closing_conns (f := fun conn => { conn with ended := true }) h (fun _ _ => rfl) c

theorem closing_reached (actions : List (Action ο ε)) :
    Sound (reached actions) ∧ Quiet (reached actions) ∧ Closing (reached actions) := by
  refine invariant_reached (I := fun pool => Sound pool ∧ Quiet pool ∧ Closing pool) ?_ ?_ actions
  · obtain ⟨hsound, hquiet⟩ := sound_reached (ο := ο) (ε := ε) []
    refine ⟨hsound, hquiet, rfl, nofun, nofun, nofun, fun _ => ⟨nofun, nofun⟩, nofun⟩
  · intro pool action ⟨hsound, hquiet, hclosing⟩
    obtain ⟨hsound', hquiet'⟩ := sound_step action ⟨hsound, hquiet⟩
    exact ⟨hsound', hquiet', closing_step action hclosing hsound hquiet⟩

/-! ## After the completion -/

/-- A pool whose shutdown has completed. -/
structure Finished (pool : Pool ο ε) : Prop where
  /-- Every driver task has ended. -/
  drivers : ∀ conn ∈ pool.conns, conn.ended = true
  /-- No call is counted, by the pool or by itself. -/
  acquires : pool.acquires = 0 ∧ pool.acquiresWatch = 0 ∧ ∀ c ∈ pool.callers, c.stage.counted = false
  /-- No slot holds a handle, and none is `Dialing`. -/
  slots : ∀ slot ∈ pool.slots, slot.state = .idle

omit [DecidableEq ο] in
theorem finished_of_closing (hsound : Sound pool) (hquiet : Quiet pool) (h : Closing pool)
    (hfinished : pool.finished = true) : Finished pool := by
  have hdone := h.finished hfinished
  have hzero := hquiet.calm _ hdone (by rintro ⟨⟩)
  have htaken := h.taken _ hdone _ _ rfl
  constructor
  case drivers =>
    intro conn hconn
    obtain ⟨c, hc, rfl⟩ := List.mem_iff_getElem.mp hconn
    rcases htaken.conns c hc with hended | hmem
    · simpa [Pool.conn, hc] using hended
    · cases hmem
  case acquires =>
    refine ⟨hzero, hquiet.watch.trans hzero, fun c hc => ?_⟩
    have hcount := hsound.acquires
    rw [hzero] at hcount
    simpa using List.countP_eq_zero.mp hcount.symm c hc
  case slots =>
    intro slot hslot
    obtain ⟨s, hs, rfl⟩ := List.mem_iff_getElem.mp hslot
    simpa [Pool.slot, hs] using htaken.slots s List.not_mem_nil

/-- Who has a handle in hand has had it before. -/
def HandsOutNothing (pool pool' : Pool ο ε) : Prop :=
  ∀ (i : ℕ) (c' : Caller ο ε) handed, pool'.callers[i]? = some c' → c'.stage.result = some (.ok handed) →
    ∃ c : Caller ο ε, pool.callers[i]? = some c ∧ c.stage.result = some (.ok handed)

theorem finished_step (action : Action ο ε) (hsound : Sound pool) (hquiet : Quiet pool)
    (h : Closing pool) (hfinished : pool.finished = true) :
    (step pool action).finished = true ∧ HandsOutNothing pool (step pool action) := by
  have hdone := h.finished hfinished
  have hzero := hquiet.calm _ hdone nofun
  have hclosed := closed_of_drain hquiet hdone
  have hsame : ∀ pool' : Pool ο ε, pool'.callers = pool.callers → HandsOutNothing pool pool' := by
    intro pool' hcallers i c' handed hc' hresult
    rw [hcallers] at hc'
    exact ⟨c', hc', hresult⟩
  cases action with
  | call origin =>
    refine ⟨hfinished, fun i c' handed hc' hresult => ?_⟩
    rw [step, List.getElem?_append] at hc'
    split at hc'
    · exact ⟨c', hc', hresult⟩
    · rw [List.mem_singleton.mp (List.mem_of_getElem? hc')] at hresult
      cases hresult
  | advance i =>
    rcases advance_closed hsound hzero hclosed i with hstay | ⟨hover, -⟩
    · rw [step, hstay]
      exact ⟨hfinished, hsame _ rfl⟩
    · rw [step, hover]
      refine ⟨hfinished, fun j c' handed hc' hresult => ?_⟩
      rcases getElem?_modify_some hc' with ⟨rfl, c, -, rfl⟩ | ⟨-, hc⟩
      · simp [Stage.result] at hresult
      · exact ⟨c', hc, hresult⟩
  | connect i outcome =>
    rw [step, connect_closed hsound hzero]
    exact ⟨hfinished, hsame _ rfl⟩
  | cancel i =>
    rw [step, cancel_closed hsound hzero]
    exact ⟨hfinished, hsame _ rfl⟩
  | shutdown => exact ⟨hfinished, hsame _ rfl⟩
  | advanceShutdown j =>
    rw [step, Pool.advanceShutdown]
    repeat' split
    all_goals exact ⟨hfinished, hsame _ rfl⟩
  | cancelShutdown j =>
    rw [step, Pool.cancelShutdown]
    split
    all_goals exact ⟨hfinished, hsame _ rfl⟩
  | advanceDrain k =>
    rw [step, Pool.advanceDrain]
    repeat' split
    all_goals first | exact ⟨hfinished, hsame _ rfl⟩ | exact ⟨rfl, hsame _ rfl⟩
  | wind k s =>
    rw [step, Pool.wind]
    repeat' split
    · obtain ⟨conns, hwind⟩ := windDown_eq pool s
      rw [hwind]
      exact ⟨hfinished, hsame _ rfl⟩
    all_goals exact ⟨hfinished, hsame _ rfl⟩
  | connClosed c | connRefuses c | driverEnds c => exact ⟨hfinished, hsame _ rfl⟩

theorem finished_reached (actions more : List (Action ο ε)) (hfinished : (reached actions).finished = true) :
    (reached (actions ++ more)).finished = true ∧ HandsOutNothing (reached actions) (reached (actions ++ more)) := by
  induction more using List.reverseRecOn with
  | nil => simpa using ⟨hfinished, fun i c handed hc hresult => ⟨c, hc, hresult⟩⟩
  | append_singleton more action ih =>
    obtain ⟨hbefore, hnothing⟩ := ih
    obtain ⟨hsound, hquiet, hclosing⟩ := closing_reached (actions ++ more)
    rw [← List.append_assoc, reached_append]
    obtain ⟨hafter, hnothing'⟩ := finished_step action hsound hquiet hclosing hbefore
    refine ⟨hafter, fun i c' handed hc' hresult => ?_⟩
    obtain ⟨c, hc, hresult⟩ := hnothing' i c' handed hc' hresult
    exact hnothing i c handed hc hresult

/-- A completed pool shutdown is the truth. The drain is started once, by the first of the calls; a call resolves
only once the completion is published; and behind it the pool is empty, and stays so. -/
theorem shutdown_completed (actions : List (Action ο ε)) :
    (reached actions).drains.length ≤ 1 ∧
    (∀ shutdown ∈ (reached actions).shutdowns, shutdown ≠ .calling →
      (reached actions).drains.length + (reached actions).shutdowns.count .elected = 1) ∧
    (.resolved ∈ (reached actions).shutdowns → (reached actions).finished = true) ∧
    ((reached actions).finished = true → ∀ more, (reached (actions ++ more)).finished = true ∧
      Finished (reached (actions ++ more)) ∧ HandsOutNothing (reached actions) (reached (actions ++ more))) := by
  obtain ⟨hsound, hquiet, hclosing⟩ := closing_reached actions
  have hone := hclosing.one
  refine ⟨?_, fun shutdown hmem hcalling => ?_, hclosing.resolved, fun hfinished more => ?_⟩
  · split at hone <;> omega
  · rw [hone, hclosing.begun shutdown hmem hcalling]
    rfl
  · obtain ⟨hafter, hnothing⟩ := finished_reached actions more hfinished
    obtain ⟨hsound', hquiet', hclosing'⟩ := closing_reached (actions ++ more)
    exact ⟨hafter, finished_of_closing hsound' hquiet' hclosing' hafter, hnothing⟩

/-- The pool is shut down while a dial is in the air, and the call that made it is refused. -/
example : (fun pool : Pool ℕ Unit => (pool.finished, pool.shutdowns, pool.callers.map (·.stage.result)))
    (reached [.call 0, .advance 0, .advance 0, .advance 0, .shutdown, .advanceShutdown 0, .advanceShutdown 0,
      .connect 0 (.ok ()), .advance 0, .advance 0, .advance 0, .advanceDrain 0, .advanceDrain 0, .wind 0 0,
      .advanceDrain 0, .driverEnds 0, .advanceDrain 0, .advanceDrain 0, .advanceShutdown 0]) =
    (true, [.resolved], [some (.error .shutDown)]) := by
  decide

end Runs

end Ngnet.OriginPool
