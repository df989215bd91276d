import Mathlib.Logic.Function.Basic
import Mathlib.Logic.Relation
import Ngnet.QuicEndpointDriver

/-!
# What the operations of an endpoint change

Whatever an operation of the driver does to the connections, to what they share with their handles, to the
routes and to the dials is a sequence of a few kinds of changes. What is told a connection's handle, by which
path, is one of them: a connection that is told that it has ended is marked as finished, or is draining, or
the failure is `silent`.
-/

namespace Ngnet.QuicEndpointSteps
open QmuxVarints QmuxStreams InterleavedPrograms QuicEndpoint QuicEndpointDriver
open QuicStreamWrites (StreamWrite)

variable {κ σ π : Type}

/-- What the steps are about. -/
structure Core (κ : Type) where
  tracked : ℕ → Option (Tracked κ)
  shareds : ℕ → ConnectionShared
  created : ℕ
  nextIndex : ℕ
  routes : List (Bytes × ℕ)
  dialing : List ℕ
  dials : List ℕ
  connecting : List ℕ
  detachable : Bool
  gone : Bool
  ready : List (Detached κ)
  detaching : List ℕ
  dropping : List ℕ
  owned : List ℕ
  noted : List (ℕ × Naming)
  reported : List (ℕ × RouteUpdate)
  dialled : List ℕ
  abandoned : List ℕ
  completed : List (Option ℕ × Bytes)
  progress : Progress

def core (w : World κ σ π) : Core κ where
  tracked i := w.driver.connections[i]?
  shareds := w.shareds
  created := w.created
  nextIndex := w.driver.nextIndex
  routes := w.driver.routes
  dialing := w.driver.dialing.map (·.shared)
  dials := w.endpoint.dials.map (·.shared)
  connecting := w.connecting.map (·.shared)
  detachable := w.driver.detachable
  gone := w.endpoint.gone
  ready := w.ready
  detaching := w.detaching
  dropping := w.dropping
  owned := w.owned
  noted := w.history.noted
  reported := w.history.reported
  dialled := w.history.dialled
  abandoned := w.history.abandoned
  completed := w.history.completed
  progress := w.history.progress

namespace Core

/-- The connections that were asked for and not dialled yet. -/
def asked (s : Core κ) : List ℕ := s.dialing ++ s.dials ++ s.connecting

def setTracked (s : Core κ) (i : ℕ) (tracked : Option (Tracked κ)) : Core κ :=
  { s with tracked := Function.update s.tracked i tracked }

def modifyShared (s : Core κ) (c : ℕ) (f : ConnectionShared → ConnectionShared) : Core κ :=
  { s with shareds := Function.update s.shareds c (f (s.shareds c)) }

/-- What a connection knows of its identifiers. -/
def recordRoutes (s : Core κ) (c : ℕ) (updates : List RouteUpdate) : Core κ :=
  { s with noted := s.noted ++ updates.map fun update => (c, .noted update) }

def recordChosen (s : Core κ) (c : ℕ) (cid : Bytes) : Core κ := { s with noted := s.noted ++ [(c, .chosen cid)] }

/-- Tells the table of routes where a connection can be reached. -/
def report (s : Core κ) (i : ℕ) (updates : List RouteUpdate) : Core κ :=
  { s with
    routes := updates.foldl (World.applyRoute i) s.routes
    reported := s.reported ++ updates.map fun update => (i, update) }

/-- A connection is asked for. -/
def ask (s : Core κ) (shared : ConnectionShared) : Core κ :=
  { s with created := s.created + 1, shareds := Function.update s.shareds s.created shared }

def track (s : Core κ) (tracked : Tracked κ) : Core κ :=
  { s.setTracked s.nextIndex (some tracked) with nextIndex := s.nextIndex + 1 }

/-- A connection is tracked, and its identifiers are routed to it. -/
def install [Transport κ] (s : Core κ) (conn : κ) (c : ℕ) (remote : Address) : Core κ :=
  ((s.track { conn := some conn, shared := c, remote }).recordRoutes c (World.initialRoutes conn)).report s.nextIndex
    (World.initialRoutes conn)

def remove (s : Core κ) (i : ℕ) : Core κ := { s.setTracked i none with routes := s.routes.filter (·.2 ≠ i) }

end Core

/-- A change of what is shared that no one is told of, by another path than the mailbox. -/
structure Quiet (s s' : ConnectionShared) : Prop where
  closed : s'.closed = s.closed
  established : s'.established = s.established
  detach : s'.detach = s.detach
  detachToAcceptor : s'.detachToAcceptor = s.detachToAcceptor
  terminal : s'.terminal = s.terminal
  routes : s'.routes = s.routes
  outbound : s.hasOutbound = false → s'.hasOutbound = false

/-- What is shared by a connection that a peer asked for. -/
structure Fresh (s : ConnectionShared) : Prop where
  closed : s.closed = false
  established : s.established = false
  terminal : s.terminal = false
  routes : s.routes = []
  detachToAcceptor : s.detachToAcceptor = s.detach

variable [Transport κ]

/-- The connection has ended, as far as `evict` can see. -/
def isOver (tracked : Tracked κ) : Bool := tracked.finished || tracked.conn.any Transport.inDrainingPeriod

/-- What not every step may do, in a given state: which connections may fail silently, which identifiers may be
routed because a client chose them, which connections may be dialled, handed over, removed and reported on, by mailbox
and by index, whether dials may be drained, whether sends may complete, and whether the driver may get on. -/
structure May (κ : Type) where
  silent : ℕ → Prop := fun _ => True
  chosen : Core κ → Bytes → Prop := fun _ _ => True
  dialled : Core κ → ℕ → Prop := fun _ _ => True
  handed : Core κ → ℕ → Prop := fun _ _ => True
  removed : Core κ → ℕ → Prop := fun _ _ => True
  routed : Core κ → ℕ → Prop := fun _ _ => True
  drained : Core κ → Prop := fun _ => True
  completes : Prop := True
  advances : Prop := True

/-- One change. Where a connection is told that it has failed and `evict` cannot see it, the failure is
silent. -/
inductive Step (may : May κ) (s : Core κ) : Core κ → Prop
  | share (c : ℕ) {f : ConnectionShared → ConnectionShared} (hf : Quiet (s.shareds c) (f (s.shareds c))) :
    Step may s (s.modifyShared c f)
  | call {i : ℕ} {tracked : Tracked κ} {conn : κ} (h : s.tracked i = some tracked) (hconn : tracked.conn = some conn)
      {α : Type} (call : ConnCall α) :
    Step may s (((s.setTracked i (some { tracked with conn := some (Transport.call call conn).2.2 })).modifyShared
      tracked.shared fun shared => (Transport.call call conn).2.1.foldl .note shared).recordRoutes tracked.shared
        ((Transport.call call conn).2.1.filterMap Note.routing))
  | pend {i : ℕ} {tracked : Tracked κ} (h : s.tracked i = some tracked) (pending : Option Bytes) :
    Step may s (s.setTracked i (some { tracked with pending }))
  | finish {i : ℕ} {tracked : Tracked κ} (h : s.tracked i = some tracked) (error : Error) :
    Step may s ((s.setTracked i (some { tracked with finished := true })).modifyShared tracked.shared (·.fail error))
  | fail {i : ℕ} {tracked : Tracked κ} (h : s.tracked i = some tracked) (hover : isOver tracked = true) (error : Error) :
    Step may s (s.modifyShared tracked.shared (·.fail error))
  | failSilently {c : ℕ} (h : may.silent c) (error : Error) : Step may s (s.modifyShared c (·.fail error))
  | establish {i : ℕ} {tracked : Tracked κ} (h : s.tracked i = some tracked) :
    Step may s (s.modifyShared tracked.shared ({ · with established := true }))
  | handOver {i : ℕ} {tracked : Tracked κ} {conn : κ} (h : s.tracked i = some tracked) (hconn : tracked.conn = some conn)
      (hdetach : (s.shareds tracked.shared).detach = true) (hestablished : (s.shareds tracked.shared).established = true)
      (hmay : may.handed s tracked.shared) :
    Step may s { s.setTracked i (some { tracked with conn := none }) with
      ready := s.ready ++ [⟨(s.shareds tracked.shared).detachToAcceptor, conn, tracked.shared, tracked.remote⟩] }
  | ask {shared : ConnectionShared} (h : Fresh shared) : Step may s (s.ask shared)
  | dial {c : ℕ} {dialing : List ℕ} (h : s.dialing = c :: dialing) (conn : κ) (remote : Address) (hmay : may.dialled s c) :
    Step may s (({ s with dialing } : Core κ).install conn c remote)
  | undial {c : ℕ} {dialing : List ℕ} (h : s.dialing = c :: dialing) (error : Error) :
    Step may s (({ s with dialing } : Core κ).modifyShared c (·.fail error))
  | accept {shared : ConnectionShared} (h : Fresh shared) (conn : κ) (remote : Address) {id : Bytes}
      (hmay : may.chosen s id) :
    Step may s ((((s.ask shared).install conn s.created remote).recordChosen s.created id).report s.nextIndex [.minted id])
  | applyRoutes {i : ℕ} {tracked : Tracked κ} (h : s.tracked i = some tracked) (hmay : may.routed s i) :
    Step may s ((s.modifyShared tracked.shared ({ · with routes := [] })).report i (s.shareds tracked.shared).routes)
  | remove (i : ℕ) (hmay : may.removed s i) : Step may s (s.remove i)
  | drain (hmay : may.drained s) : Step may s { s with dialing := s.dials, dials := [] }
  | failDials (error : Error) : Step may s { s with
      dials := []
      shareds := fun c => if c ∈ s.dials then (s.shareds c).fail error else s.shareds c }
  | markGone : Step may s { s with gone := true }
  | complete (hmay : may.completes) (sent : Option ℕ × Bytes) : Step may s { s with completed := s.completed ++ [sent] }
  | advance (hmay : may.advances) (progress : Progress) : Step may s { s with progress }

/-- From one state to the other, an endpoint takes steps. -/
def Takes (may : May κ) (w w' : World κ σ π) : Prop := Relation.ReflTransGen (Step may) (core w) (core w')

section Takes
variable {may : May κ} {w w' w'' : World κ σ π} {i c : ℕ} {tracked : Tracked κ} {conn : κ}

theorem Takes.trans (h : Takes may w w') (h' : Takes may w' w'') : Takes may w w'' := Relation.ReflTransGen.trans h h'

theorem takes_of_eq (h : core w' = core w) : Takes may w w' := by
  rw [Takes, h]

theorem takes_refl : Takes may w w := .refl

theorem takes_step (h : Step may (core w) (core w')) : Takes may w w' := .single h

theorem Takes.invariant {I : Core κ → Prop} (h : Takes may w w') (hstep : ∀ {s s'}, I s → Step may s s' → I s')
    (hI : I (core w)) : I (core w') :=
  StatefulPrograms.invariant_of_steps (r := Step may) (fun _ _ htaken hs => hstep hs htaken) h hI

/-! ## Changes of one part -/

section
omit [Transport κ]

theorem tracked_insert (connections : Std.TreeMap ℕ (Tracked κ)) (i : ℕ) (tracked : Tracked κ) :
    (fun j => (connections.insert i tracked)[j]?) = Function.update (fun j => connections[j]?) i (some tracked) := by
  funext j
  rw [Std.TreeMap.getElem?_insert, Function.update_apply]
  by_cases hj : j = i
  · simp [hj]
  · simp [hj, Ne.symm hj]

theorem core_setTracked (w : World κ σ π) (i : ℕ) (tracked : Tracked κ) :
    core (w.setTracked i tracked) = (core w).setTracked i (some tracked) := by
  simp only [core, World.setTracked, World.onDriver, Core.setTracked, tracked_insert]

theorem core_modifyShared (w : World κ σ π) (c : ℕ) (f : ConnectionShared → ConnectionShared) :
    core (w.modifyShared c f) = (core w).modifyShared c f := rfl

theorem core_report (w : World κ σ π) (i : ℕ) (updates : List RouteUpdate) :
    core (w.report i updates) = (core w).report i updates := rfl

theorem core_recordChosen (w : World κ σ π) (c : ℕ) (cid : Bytes) :
    core (w.recordChosen c cid) = (core w).recordChosen c cid := rfl

end

theorem core_install (w : World κ σ π) (conn : κ) (shared : ℕ) (remote : Address) :
    core (w.install conn shared remote) = (core w).install conn shared remote := by
  simp only [core, World.install, World.report, World.recordRoutes, World.onDriver, World.onHistory, Core.install,
    Core.track, Core.report, Core.recordRoutes, Core.setTracked, tracked_insert]

omit [Transport κ] in
theorem core_remove (w : World κ σ π) (i : ℕ) : core (w.remove i) = (core w).remove i := by
  have htracked : (fun j => (w.driver.connections.erase i)[j]?) =
      Function.update (fun j => w.driver.connections[j]?) i none := by
    funext j
    rw [Std.TreeMap.getElem?_erase, Function.update_apply]
    by_cases hj : j = i
    · simp [hj]
    · simp [hj, Ne.symm hj]
  simp only [core, World.remove, World.onDriver, Core.remove, Core.setTracked, htracked]

theorem takes_share {f : ConnectionShared → ConnectionShared} (hf : Quiet (w.shareds c) (f (w.shareds c))) :
    Takes may w (w.modifyShared c f) := takes_step (Step.share c hf)

theorem takes_push (command : Command) : Takes may w (w.modifyShared c (·.push command)) :=
  takes_share ⟨rfl, rfl, rfl, rfl, rfl, rfl, id⟩

theorem takes_failSilently (h : may.silent c) (error : Error) : Takes may w (w.modifyShared c (·.fail error)) :=
  takes_step (Step.failSilently h error)

/-- The connection may be told that it has failed. -/
def MayFail (may : May κ) (w : World κ σ π) (c : ℕ) : Prop :=
  may.silent c ∨ ∃ (i : ℕ) (tracked : Tracked κ), w.driver.connections[i]? = some tracked ∧ tracked.shared = c ∧
    isOver tracked = true

theorem takes_fail (h : MayFail may w c) (error : Error) : Takes may w (w.modifyShared c (·.fail error)) := by
  rcases h with hsilent | ⟨i, tracked, htracked, rfl, hover⟩
  · exact takes_failSilently hsilent error
  · exact takes_step (Step.fail htracked hover error)

theorem takes_setTracked {tracked' : Tracked κ} (h : Step may (core w) ((core w).setTracked i (some tracked'))) :
    Takes may w (w.setTracked i tracked') := by
  refine takes_step ?_
  rw [core_setTracked]
  exact h

theorem takes_pend (pending : Option Bytes) : Takes may w (w.modifyTracked i ({ · with pending })) := by
  rw [World.modifyTracked]
  split
  · rename_i tracked h
    exact takes_setTracked (Step.pend h pending)
  · exact takes_refl

theorem takes_marked (h : w.driver.connections[i]? = some tracked) (error : Error) :
    Takes may w ((w.setTracked i { tracked with finished := true }).modifyShared tracked.shared (·.fail error)) := by
  refine takes_step ?_
  rw [core_modifyShared, core_setTracked]
  exact Step.finish h error

section Ops
variable [Socket σ] [Platform π κ]

omit [Socket σ] in
theorem takes_now (w : World κ σ π) : Takes may w w.now.2 := takes_of_eq rfl

section
omit [Socket σ] [Platform π κ]

theorem takes_callConn {α : Type} (h : w.driver.connections[i]? = some tracked) (hconn : tracked.conn = some conn)
    (call : ConnCall α) : Takes may w (w.callConn i tracked conn call).2 := by
  refine takes_step ?_
  have hstep : Step may (core w) _ := Step.call h hconn call
  rw [← core_setTracked] at hstep
  exact hstep

theorem connections_callConn {α : Type} (w : World κ σ π) (i : ℕ) (tracked : Tracked κ) (conn : κ) (call : ConnCall α) :
    (w.callConn i tracked conn call).2.driver.connections[i]? =
      some { tracked with conn := some (Transport.call call conn).2.2 } := Std.TreeMap.getElem?_insert_self

theorem takes_setRetained : Takes may w (w.setRetained i) := by
  rw [World.setRetained]
  split
  · exact takes_refl
  split
  · exact takes_refl
  · exact takes_share ⟨rfl, rfl, rfl, rfl, rfl, rfl, id⟩

end

omit [Platform π κ] in
theorem takes_pollSend (hcompletes : may.completes) (tracked : Tracked κ) (d : Bytes) :
    Takes may w (w.pollSend tracked d).2 := by
  rw [World.pollSend]
  dsimp only
  split
  · exact takes_step (Step.complete hcompletes _)
  all_goals exact takes_of_eq rfl

/-! ## Commands -/

omit [Platform π κ] in
theorem takes_sendOrKeep (hcompletes : may.completes) (tracked : Tracked κ) (d : Bytes) :
    Takes may w (w.sendOrKeep i tracked d) := by
  have hrecord : Takes may w (w.recordProduced (some tracked.shared) d) := takes_of_eq rfl
  have hsend : Takes may w _ := hrecord.trans (takes_pollSend hcompletes tracked d)
  rw [World.sendOrKeep]
  generalize (w.recordProduced (some tracked.shared) d).pollSend tracked d = result at hsend ⊢
  obtain ⟨disposition, w'⟩ := result
  cases disposition with
  | sent => exact hsend
  | nothing => exact hsend.trans (takes_pend _)
  | refused => exact hsend.trans (takes_pend _)
  | failed => exact hsend.trans (takes_pend _)

omit [Platform π κ] in
theorem takes_settleWrite (hcompletes : may.completes) (tracked : Tracked κ) (write : Write) (outcome : Except CoreError StreamWrite) (buffer : Bytes)
    (hfails : ∀ error, outcome = .error error → MayFail may w tracked.shared) :
    Takes may w (w.settleWrite i tracked write outcome buffer) := by
  have hsends : Takes may w (w.sendProduced i tracked (World.produced outcome buffer)) := by
    cases World.produced outcome buffer with
    | some datagram => exact (takes_sendOrKeep hcompletes tracked datagram).trans takes_setRetained
    | none => exact takes_refl
  cases outcome with
  | error error => exact takes_fail (hfails error rfl) _
  | ok outcome =>
    refine hsends.trans ?_
    rw [World.settleWrite]
    split
    · exact takes_push _
    · exact takes_refl

/-! ### What fails silently -/

def connAt (w : World κ σ π) (i : ℕ) (f : Tracked κ → κ → Bool) : Bool :=
  match w.driver.connections[i]? with
  | none => false
  | some tracked =>
    match tracked.conn with
    | none => false
    | some conn => f tracked conn

omit [Transport κ] [Socket σ] [Platform π κ] in
theorem connAt_eq {f : Tracked κ → κ → Bool} (h : w.driver.connections[i]? = some tracked) (hconn : tracked.conn = some conn) :
    connAt w i f = f tracked conn := by
  simp [connAt, h, hconn]

def failed {α : Type} : Except CoreError α → Bool
  | .error _ => true
  | .ok _ => false

/-- A call that fails and leaves the connection as one that `evict` does not see the end of. -/
def failsIn {α : Type} (tracked : Tracked κ) (conn : κ) (call : ConnCall α) (fails : α → Bool) : Bool :=
  fails (Transport.call call conn).1 && !isOver { tracked with conn := some (Transport.call call conn).2.2 }

/-- A stream cannot be opened, and not for want of credit. -/
def refused : Except CoreError StreamId → Bool
  | .error error => error.kind ≠ .blocked
  | .ok _ => false

/-- The core says that the connection has ended. -/
def ended : Except CoreError QuicEndpoint.ReadOutcome → Bool
  | .ok .draining | .ok .closing => true
  | _ => false

def offer (conn : κ) (write : Write) (now : ℕ) : ConnCall (Except CoreError StreamWrite × Bytes) :=
  .writeStream write.stream (World.chunk conn write) (World.isLast conn write) now

def openCall (bidi : Bool) : ConnCall (Except CoreError StreamId) := if bidi then .openBidiStream else .openUniStream

/-- The operation tells a connection that it has failed, and `evict` does not see it. -/
def failsSilently {β : Type} (op : Op κ β) (w : World κ σ π) : Bool :=
  match op with
  | .deliver index datagram => connAt w index fun tracked conn => failsIn tracked conn (.readPkt datagram w.now.1) ended
  | .runCommand index =>
    match w.driver.taken with
    | .openStream bidi :: _ => connAt w index fun tracked conn =>
      refused (Transport.call (openCall bidi) conn).1 &&
        !(w.driver.takenFrom = tracked.shared && isOver { tracked with conn := some (Transport.call (openCall bidi) conn).2.2 })
    | .write stream data fin :: _ => connAt w index fun tracked conn =>
      tracked.pending.isNone && failsIn tracked conn (offer conn ⟨stream, data, fin⟩ w.now.1) (failed ·.1)
    | _ => false
  | .handleExpiry index => connAt w index fun tracked conn =>
    !(Transport.expiry conn).all (w.now.1 < ·) && failsIn tracked conn (.handleExpiry w.now.1) failed
  | .sendNext index => connAt w index fun tracked conn =>
    tracked.pending.isNone && (w.shareds tracked.shared).takeOutbound.1.isNone &&
      failsIn tracked conn (.writePkt w.now.1) (failed ·.1)
  | .handOver index => connAt w index fun tracked _ =>
    (w.shareds tracked.shared).detach && (w.shareds tracked.shared).established && !w.driver.detachable && !isOver tracked
  | _ => false

/-- The operation tells every connection so, on the way to the end of the driver. -/
def failsAll {β : Type} : Op κ β → Bool
  | .failAll _ => true
  | _ => false

omit [Socket σ] [Platform π κ] in
theorem mayFail_callConn {α : Type} (conn : κ) (call : ConnCall α) {fails : α → Bool}
    (hsilent : failsIn tracked conn call fails = true → ∀ c, may.silent c) (hfails : fails (Transport.call call conn).1 = true) :
    MayFail may (w.callConn i tracked conn call).2 tracked.shared := by
  by_cases hover : isOver { tracked with conn := some (Transport.call call conn).2.2 } = true
  · exact .inr ⟨i, _, connections_callConn w i tracked conn call, rfl, hover⟩
  · exact .inl (hsilent (by simp [failsIn, hfails, hover]) _)

omit [Platform π κ] in
theorem takes_offerWrite (hcompletes : may.completes) (h : w.driver.connections[i]? = some tracked) (hconn : tracked.conn = some conn) (write : Write)
    (now : ℕ) (hsilent : failsIn tracked conn (offer conn write now) (failed ·.1) = true → ∀ c, may.silent c) :
    Takes may w (w.offerWrite i tracked conn write now) := by
  have hcall : Takes may w _ := takes_callConn h hconn (offer conn write now)
  have hfails := mayFail_callConn (w := w) (i := i) conn (offer conn write now) hsilent
  have hanswer : (w.callConn i tracked conn (offer conn write now)).1 = (Transport.call (offer conn write now) conn).1 := rfl
  rw [World.offerWrite, ← offer]
  rw [← hanswer] at hfails
  generalize w.callConn i tracked conn (offer conn write now) = result at hcall hfails ⊢
  obtain ⟨⟨outcome, buffer⟩, w'⟩ := result
  dsimp only at hcall hfails ⊢
  have hrecord : Takes may w' (w'.recordOffer tracked.shared write.stream
    ⟨World.chunk conn write, World.isLast conn write, World.carried outcome⟩) := takes_of_eq rfl
  refine hcall.trans (hrecord.trans (takes_settleWrite hcompletes tracked write outcome buffer fun error herror => hfails ?_))
  rw [herror]
  rfl

theorem takes_writeStream (hcompletes : may.completes) (write : Write)
    (hsilent : connAt w i (fun tracked conn => tracked.pending.isNone &&
      failsIn tracked conn (offer conn write w.now.1) (failed ·.1)) = true → ∀ c, may.silent c) : Takes may w (w.writeStream i write) := by
  rw [World.writeStream]
  have hconnections : w.now.2.driver.connections = w.driver.connections := rfl
  have hnow : Takes may w w.now.2 := takes_now w
  generalize w.now = result at hnow hconnections hsilent ⊢
  obtain ⟨now, w'⟩ := result
  dsimp only at hnow hconnections hsilent ⊢
  refine hnow.trans ?_
  split
  · exact takes_refl
  rename_i tracked h
  split
  · exact takes_push _
  rename_i hpending
  split
  · exact takes_refl
  rename_i conn hconn
  refine takes_offerWrite hcompletes h hconn write now fun hfails => hsilent ?_
  rw [hconnections] at h
  rw [connAt_eq h hconn, hfails]
  simpa using hpending

omit [Socket σ] [Platform π κ] in
theorem takes_keepClose (d : Bytes) : Takes may w (w.keepClose i tracked d) := by
  rw [World.keepClose]
  have hrecord : Takes may w (w.recordProduced (some tracked.shared) d) := takes_of_eq rfl
  refine hrecord.trans ?_
  cases tracked.pending with
  | some pending => exact takes_of_eq rfl
  | none => exact takes_pend _

omit [Socket σ] [Platform π κ] in
theorem takes_writeClose (h : w.driver.connections[i]? = some tracked) (hconn : tracked.conn = some conn)
    (code : ℕ) (reason : Bytes) (now : ℕ) : Takes may w (w.writeClose i tracked conn code reason now) := by
  have hcall : Takes may w _ := takes_callConn h hconn (.writeConnectionClose code reason now)
  rw [World.writeClose]
  generalize w.callConn i tracked conn (.writeConnectionClose code reason now) = result at hcall ⊢
  obtain ⟨⟨outcome, buffer⟩, w'⟩ := result
  refine hcall.trans ?_
  cases outcome with
  | error error => exact takes_refl
  | ok len =>
    dsimp only
    split
    · exact takes_keepClose _
    · exact takes_refl

/-- The entry is still that of the same connection. -/
def SameEntry (w : World κ σ π) (i c : ℕ) : Prop := ∃ tracked, w.driver.connections[i]? = some tracked ∧ tracked.shared = c

omit [Transport κ] [Socket σ] [Platform π κ] in
theorem sameEntry_modifyTracked (h : SameEntry w i c) {f : Tracked κ → Tracked κ} (hf : ∀ t, (f t).shared = t.shared) :
    SameEntry (w.modifyTracked i f) i c := by
  obtain ⟨tracked, htracked, hshared⟩ := h
  rw [World.modifyTracked, htracked]
  exact ⟨f tracked, Std.TreeMap.getElem?_insert_self, (hf tracked).trans hshared⟩

omit [Socket σ] [Platform π κ] in
theorem sameEntry_writeClose (tracked : Tracked κ) (conn : κ) (code : ℕ) (reason : Bytes) (now : ℕ) :
    SameEntry (w.writeClose i tracked conn code reason now) i tracked.shared := by
  have hentry : SameEntry (w.callConn i tracked conn (.writeConnectionClose code reason now)).2 i tracked.shared :=
    ⟨_, connections_callConn w i tracked conn _, rfl⟩
  rw [World.writeClose]
  generalize w.callConn i tracked conn (.writeConnectionClose code reason now) = result at hentry ⊢
  obtain ⟨⟨outcome, buffer⟩, w'⟩ := result
  cases outcome with
  | error error => exact hentry
  | ok len =>
    dsimp only
    split
    · rw [World.keepClose]
      cases tracked.pending with
      | some pending => exact hentry
      | none =>
        have hrecord : SameEntry (w'.recordProduced (some tracked.shared) (buffer.take len)) i tracked.shared := hentry
        exact sameEntry_modifyTracked hrecord fun _ => rfl
    · exact hentry

omit [Socket σ] [Platform π κ] in
theorem takes_finish (h : SameEntry w i c) (error : Error) : Takes may w (w.finish i c error) := by
  obtain ⟨tracked, h, rfl⟩ := h
  rw [World.finish, World.modifyTracked, h]
  exact takes_marked h error

omit [Socket σ] in
theorem takes_closeConnection (code : ℕ) (reason : Bytes) : Takes may w (w.closeConnection i code reason) := by
  rw [World.closeConnection]
  have hnow : Takes may w w.now.2 := takes_now w
  generalize w.now = result at hnow ⊢
  obtain ⟨now, w'⟩ := result
  refine hnow.trans ?_
  dsimp only
  split
  · exact takes_refl
  rename_i tracked h
  cases hconn : tracked.conn with
  | none => exact takes_finish ⟨tracked, h, rfl⟩ _
  | some conn =>
    have hwrite : Takes may w' _ := takes_writeClose h hconn code reason now
    exact hwrite.trans (takes_finish (sameEntry_writeClose tracked conn code reason now) _)

omit [Socket σ] [Platform π κ] in
theorem takes_openStream (h : w.driver.connections[i]? = some tracked) (hconn : tracked.conn = some conn) (bidi : Bool)
    (hsilent : (refused (Transport.call (openCall bidi) conn).1 && !(w.driver.takenFrom = tracked.shared &&
      isOver { tracked with conn := some (Transport.call (openCall bidi) conn).2.2 })) = true → ∀ c, may.silent c) :
    Takes may w (w.openStream i tracked conn bidi) := by
  have hcall : Takes may w _ := takes_callConn h hconn (openCall bidi)
  have hfails : refused (Transport.call (openCall bidi) conn).1 = true →
      MayFail may (w.callConn i tracked conn (openCall bidi)).2 (w.callConn i tracked conn (openCall bidi)).2.driver.takenFrom := by
    intro hrefused
    by_cases hover : w.driver.takenFrom = tracked.shared ∧
        isOver { tracked with conn := some (Transport.call (openCall bidi) conn).2.2 } = true
    · exact .inr ⟨i, _, connections_callConn w i tracked conn (openCall bidi), hover.1.symm, hover.2⟩
    · refine .inl (hsilent ?_ _)
      have hnot : (w.driver.takenFrom = tracked.shared &&
        isOver { tracked with conn := some (Transport.call (openCall bidi) conn).2.2 }) = false := by simpa using hover
      rw [hrefused, hnot]
      rfl
  have hanswer : (w.callConn i tracked conn (openCall bidi)).1 = (Transport.call (openCall bidi) conn).1 := rfl
  rw [World.openStream]
  rw [← hanswer] at hfails
  rw [← openCall]
  generalize w.callConn i tracked conn (openCall bidi) = result at hcall hfails ⊢
  obtain ⟨answer, w'⟩ := result
  dsimp only at hfails
  refine hcall.trans ?_
  cases answer with
  | ok stream =>
    have hobserve : Takes may w' (w'.modifyShared w'.driver.takenFrom (·.observe (.locallyOpened stream))) :=
      takes_share ⟨rfl, rfl, rfl, rfl, rfl, rfl, id⟩
    exact hobserve
  | error error =>
    show Takes may w' (if _ then _ else _)
    split
    · exact takes_push _
    · rename_i hkind
      exact takes_fail (hfails (by simpa [refused] using hkind)) _

theorem takes_applyCommand (h : w.driver.connections[i]? = some tracked) (hconn : tracked.conn = some conn)
    (command : Command)
    (hopen : ∀ bidi, command = .openStream bidi → (refused (Transport.call (openCall bidi) conn).1 &&
      !(w.driver.takenFrom = tracked.shared && isOver { tracked with conn := some (Transport.call (openCall bidi) conn).2.2 })) =
        true → ∀ c, may.silent c)
    (hwrite : ∀ stream data fin, command = .write stream data fin → connAt w i (fun tracked conn =>
      tracked.pending.isNone && failsIn tracked conn (offer conn ⟨stream, data, fin⟩ w.now.1) (failed ·.1)) = true →
        ∀ c, may.silent c)
    (hcompletes : ∀ stream data fin, command = .write stream data fin → may.completes) :
    Takes may w (w.applyCommand i tracked conn command) := by
  cases command with
  | openStream bidi => exact takes_openStream h hconn bidi (hopen bidi rfl)
  | write stream data fin => exact takes_writeStream (hcompletes stream data fin rfl) _ (hwrite stream data fin rfl)
  | reset stream code => exact takes_callConn h hconn (.resetStream stream code)
  | stopSending stream code => exact takes_callConn h hconn (.stopSending stream code)
  | close code reason => exact takes_closeConnection code reason
  | extendCredit stream bytes =>
    rw [World.applyCommand]
    refine (takes_callConn h hconn (.extendMaxStreamOffset stream bytes)).trans ?_
    split
    · exact takes_refl
    rename_i tracked' h'
    split
    · exact takes_refl
    rename_i conn' hconn'
    exact takes_callConn h' hconn' _

/-- An operation that offers a datagram to the socket. -/
def sends {β : Type} (op : Op κ β) (w : World κ σ π) : Bool :=
  match op with
  | .sendOutbox | .sendNext _ => true
  | .runCommand _ =>
    match w.driver.taken with
    | .write _ _ _ :: _ => true
    | _ => false
  | _ => false

theorem takes_runCommand (hsilent : failsSilently (.runCommand i : Op κ Bool) w = true → ∀ c, may.silent c)
    (hcompletes : sends (.runCommand i : Op κ Bool) w = true → may.completes) : Takes may w (w.runCommand i).2 := by
  rw [World.runCommand]
  split
  · exact takes_refl
  rename_i command taken htaken
  have hdrop : Takes may w (w.onDriver ({ · with taken := [] })) := takes_of_eq rfl
  split
  · exact hdrop
  rename_i tracked h
  split
  · exact hdrop
  rename_i conn hconn
  have hpop : Takes may w (w.onDriver ({ · with taken })) := takes_of_eq rfl
  have hsame : (w.onDriver ({ · with taken })).driver.connections = w.driver.connections := rfl
  rw [failsSilently, htaken] at hsilent
  rw [sends, htaken] at hcompletes
  refine hpop.trans (takes_applyCommand (hsame ▸ h) hconn command ?_ ?_ ?_)
  · rintro bidi rfl hfails
    refine hsilent ?_
    show connAt w i _ = true
    rw [connAt_eq h hconn]
    exact hfails
  · rintro stream data fin rfl hfails
    exact hsilent hfails
  · rintro stream data fin rfl
    exact hcompletes rfl

omit [Socket σ] [Platform π κ] in
theorem takes_takeCommands : Takes may w (w.takeCommands i).2 := by
  rw [World.takeCommands]
  split
  · exact takes_refl
  rename_i tracked h
  split
  · exact takes_refl
  have htake : Takes may w (w.onDriver fun d =>
      { d with takenFrom := tracked.shared, taken := (w.shareds tracked.shared).commands }) := takes_of_eq rfl
  have hempty : ∀ w' : World κ σ π, Takes may w' (w'.modifyShared tracked.shared ({ · with commands := [] })) :=
    fun _ => takes_share ⟨rfl, rfl, rfl, rfl, rfl, rfl, id⟩
  exact (htake.trans (hempty _)).trans (takes_of_eq rfl)

/-! ## Sending -/

omit [Socket σ] [Platform π κ] in
theorem takes_writeNext (h : w.driver.connections[i]? = some tracked) (hconn : tracked.conn = some conn) (now : ℕ)
    (hsilent : failsIn tracked conn (.writePkt now) (failed ·.1) = true → ∀ c, may.silent c) :
    Takes may w (w.writeNext i tracked conn now).2 := by
  have hcall : Takes may w _ := takes_callConn h hconn (.writePkt now)
  have hfails := mayFail_callConn (w := w) (i := i) conn (.writePkt now) hsilent
  have hanswer : (w.callConn i tracked conn (.writePkt now)).1 = (Transport.call (.writePkt now) conn).1 := rfl
  rw [World.writeNext]
  rw [← hanswer] at hfails
  generalize w.callConn i tracked conn (.writePkt now) = result at hcall hfails ⊢
  obtain ⟨⟨outcome, buffer⟩, w'⟩ := result
  refine hcall.trans ?_
  rcases outcome with error | len | _ | _
  · exact takes_fail (hfails rfl) _
  · exact takes_of_eq rfl
  · exact takes_refl
  · exact takes_refl

omit [Transport κ] [Socket σ] [Platform π κ] in
theorem quiet_takeOutbound (s : ConnectionShared) : Quiet s s.takeOutbound.2 := by
  rw [ConnectionShared.takeOutbound]
  split
  · rename_i datagram outbound hqueued
    refine ⟨rfl, rfl, rfl, rfl, rfl, rfl, fun hnone => ?_⟩
    simp [ConnectionShared.hasOutbound, hqueued] at hnone
  · rename_i hqueued
    refine ⟨rfl, rfl, rfl, rfl, rfl, rfl, fun _ => ?_⟩
    simp [ConnectionShared.hasOutbound, hqueued]

omit [Socket σ] in
theorem takes_nextDatagram (hsilent : failsSilently (.sendNext i : Op κ Disposition) w = true → ∀ c, may.silent c) :
    Takes may w (w.nextDatagram i).2 := by
  rw [failsSilently] at hsilent
  have hconnections : w.now.2.driver.connections = w.driver.connections := rfl
  have hshareds : w.now.2.shareds = w.shareds := rfl
  have hnow : Takes may w w.now.2 := takes_now w
  rw [World.nextDatagram]
  generalize w.now = result at hnow hconnections hshareds hsilent ⊢
  obtain ⟨now, w'⟩ := result
  dsimp only at hnow hconnections hshareds hsilent ⊢
  refine hnow.trans ?_
  split
  · exact takes_refl
  rename_i tracked h
  split
  · exact takes_setTracked (Step.pend h none)
  rename_i hpending
  split
  · rename_i queued shared hqueued
    have htake : (w'.shareds tracked.shared).takeOutbound.2 = shared := by rw [hqueued]
    refine takes_share (htake ▸ quiet_takeOutbound _)
  rename_i hqueued
  split
  · exact takes_refl
  rename_i conn hconn
  refine takes_writeNext h hconn now fun hfails => hsilent ?_
  rw [hconnections] at h
  rw [connAt_eq h hconn, hfails, ← hshareds, hqueued, hpending]
  rfl

theorem takes_sendNext (hcompletes : may.completes) (hsilent : failsSilently (.sendNext i : Op κ Disposition) w = true → ∀ c, may.silent c) :
    Takes may w (w.sendNext i).2 := by
  have hnext : Takes may w (w.nextDatagram i).2 := takes_nextDatagram hsilent
  rw [World.sendNext]
  generalize w.nextDatagram i = result at hnext ⊢
  obtain ⟨datagram, w'⟩ := result
  cases datagram with
  | none => exact hnext
  | some datagram =>
    refine hnext.trans ?_
    dsimp only
    split
    · exact takes_refl
    rename_i tracked _
    have hsend : Takes may w' (w'.pollSend tracked datagram).2 := takes_pollSend hcompletes tracked datagram
    generalize w'.pollSend tracked datagram = sent at hsend ⊢
    obtain ⟨disposition, w''⟩ := sent
    cases disposition with
    | refused => exact hsend.trans (takes_pend _)
    | nothing => exact hsend
    | sent => exact hsend
    | failed => exact hsend

omit [Platform π κ] in
theorem takes_sendOutbox (hcompletes : may.completes) : Takes may w w.sendOutbox.2 := by
  rw [World.sendOutbox]
  split
  · exact takes_refl
  dsimp only
  split
  · exact takes_step (Step.complete hcompletes _)
  all_goals exact takes_of_eq rfl

/-! ## Reading and timers -/

omit [Socket σ] [Platform π κ] in
theorem takes_failClosed (h : MayFail may w c) : Takes may w (w.failClosed i c) := by
  rw [World.failClosed]
  split
  · exact takes_fail h _
  · exact takes_refl

omit [Socket σ] [Platform π κ] in
theorem takes_readPkt (h : w.driver.connections[i]? = some tracked) (hconn : tracked.conn = some conn) (d : Bytes)
    (now : ℕ) (hsilent : failsIn tracked conn (.readPkt d now) ended = true → ∀ c, may.silent c) :
    Takes may w (w.readPkt i tracked conn d now) := by
  have hcall : Takes may w _ := takes_callConn h hconn (.readPkt d now)
  have hentry : SameEntry (w.callConn i tracked conn (.readPkt d now)).2 i tracked.shared :=
    ⟨_, connections_callConn w i tracked conn _, rfl⟩
  have hfails := mayFail_callConn (w := w) (i := i) conn (.readPkt d now) hsilent
  have hanswer : (w.callConn i tracked conn (.readPkt d now)).1 = (Transport.call (.readPkt d now) conn).1 := rfl
  rw [World.readPkt]
  rw [← hanswer] at hfails
  generalize w.callConn i tracked conn (.readPkt d now) = result at hcall hentry hfails ⊢
  obtain ⟨answer, w'⟩ := result
  refine hcall.trans ?_
  rcases answer with error | _ | _ | _ | _ | _
  · exact takes_finish hentry _
  · exact takes_refl
  · exact takes_refl
  · exact takes_refl
  · exact takes_failClosed (hfails rfl)
  · exact takes_failClosed (hfails rfl)

omit [Socket σ] in
theorem takes_deliver (d : Bytes) (hsilent : failsSilently (.deliver i d : Op κ Bool) w = true → ∀ c, may.silent c) :
    Takes may w (w.deliver i d).2 := by
  rw [failsSilently] at hsilent
  have hconnections : w.now.2.driver.connections = w.driver.connections := rfl
  have hnow : Takes may w w.now.2 := takes_now w
  rw [World.deliver]
  generalize w.now = result at hnow hconnections hsilent ⊢
  obtain ⟨now, w'⟩ := result
  dsimp only at hnow hconnections hsilent ⊢
  refine hnow.trans ?_
  split
  · exact takes_refl
  rename_i tracked h
  split
  · refine takes_share ?_
    rw [ConnectionShared.deliverInbound]
    split
    all_goals exact ⟨rfl, rfl, rfl, rfl, rfl, rfl, id⟩
  · rename_i conn hconn
    refine takes_readPkt h hconn d now fun hfails => hsilent ?_
    rw [hconnections] at h
    rw [connAt_eq h hconn, hfails]

omit [Socket σ] [Platform π κ] in
theorem takes_expire (h : w.driver.connections[i]? = some tracked) (hconn : tracked.conn = some conn) (now : ℕ)
    (hsilent : failsIn tracked conn (.handleExpiry now) failed = true → ∀ c, may.silent c) :
    Takes may w (w.expire i tracked conn now) := by
  have hcall : Takes may w _ := takes_callConn h hconn (.handleExpiry now)
  have hentry := connections_callConn w i tracked conn (.handleExpiry now)
  have hfails := mayFail_callConn (w := w) (i := i) conn (.handleExpiry now) hsilent
  have hanswer : (w.callConn i tracked conn (.handleExpiry now)).1 = (Transport.call (.handleExpiry now) conn).1 := rfl
  rw [World.expire]
  rw [← hanswer] at hfails
  generalize w.callConn i tracked conn (.handleExpiry now) = result at hcall hentry hfails ⊢
  obtain ⟨answer, w'⟩ := result
  refine hcall.trans ?_
  rcases answer with error | _ | _ | _
  · exact takes_fail (hfails rfl) _
  · exact takes_refl
  · dsimp only at hentry ⊢
    have hset : (w'.setTracked i { tracked with conn := some (Transport.call (.handleExpiry now) conn).2.2, finished := true }).driver.connections[i]? =
        some { tracked with conn := some (Transport.call (.handleExpiry now) conn).2.2, finished := true } :=
      Std.TreeMap.getElem?_insert_self
    rw [World.modifyTracked, hentry]
    dsimp only
    rw [World.failClosed, hset]
    exact takes_marked hentry _
  · exact takes_finish ⟨_, hentry, rfl⟩ _

omit [Socket σ] in
theorem takes_handleExpiry (hsilent : failsSilently (.handleExpiry i : Op κ Bool) w = true → ∀ c, may.silent c) :
    Takes may w (w.handleExpiry i).2 := by
  rw [failsSilently] at hsilent
  have hconnections : w.now.2.driver.connections = w.driver.connections := rfl
  have hnow : Takes may w w.now.2 := takes_now w
  rw [World.handleExpiry]
  generalize w.now = result at hnow hconnections hsilent ⊢
  obtain ⟨now, w'⟩ := result
  dsimp only at hnow hconnections hsilent ⊢
  refine hnow.trans ?_
  split
  · exact takes_refl
  rename_i tracked h
  split
  · exact takes_refl
  rename_i conn hconn
  split
  · exact takes_refl
  rename_i hdue
  refine takes_expire h hconn now fun hfails => hsilent ?_
  rw [hconnections] at h
  rw [connAt_eq h hconn, hfails]
  simpa using hdue

omit [Socket σ] in
theorem core_rearm (w : World κ σ π) : core w.rearm.2 = core w := by
  rw [World.rearm]
  split
  all_goals rfl

/-! ## Connections -/

/-- The connection that an operation tracks because a handle asked for it. -/
def dialledBy {β : Type} (op : Op κ β) (w : World κ σ π) : Option ℕ :=
  match op with
  | .dial => w.driver.dialing.head?.bind fun dial =>
    match (Platform.dial (κ := κ) dial.remote dial.serverName w.driver.platform).1 with
    | .ok _ => some dial.shared
    | .error _ => none
  | _ => none

omit [Socket σ] in
theorem takes_dial (hdialled : ∀ c, dialledBy (.dial : Op κ Unit) w = some c → may.dialled (core w) c) :
    Takes may w w.dial := by
  rw [World.dial]
  split
  · exact takes_refl
  rename_i dial dialing hdialing
  have hcore : (core w).dialing = dial.shared :: dialing.map (·.shared) := by
    simp [core, hdialing]
  dsimp only
  split
  · rename_i conn hbuilt
    refine takes_step ?_
    rw [core_install]
    refine Step.dial hcore conn dial.remote (hdialled _ ?_)
    simp [dialledBy, hdialing, hbuilt]
  · rename_i error _
    exact takes_step (Step.undial hcore error)

/-- The identifier that a client chose, if its packet earns it a connection. -/
def chosen (w : World κ σ π) (packet : InitialPacket) (source : Address) : Option Bytes :=
  match w.decide packet source with
  | ((.accept original, retried), w) =>
    match (Platform.accept (κ := κ) source packet original retried w.driver.platform).1 with
    | .ok _ => some packet.dcid
    | .error _ => none
  | _ => none

def chosenBy {β : Type} (op : Op κ β) (w : World κ σ π) : Option Bytes :=
  match op with
  | .begin datagram source => (Platform.inspectInitial (κ := κ) w.driver.platform datagram).bind (chosen w · source)
  | _ => none

omit [Socket σ] in
theorem takes_accept (packet : InitialPacket) (source : Address) (original : Bytes) (retried : Bool)
    (hchosen : ∀ conn, (Platform.accept (κ := κ) source packet original retried w.driver.platform).1 = .ok conn →
      may.chosen (core w) packet.dcid) : Takes may w (w.accept packet source original retried).2 := by
  have hfresh : Fresh { detach := w.endpoint.detachedAccepts, detachToAcceptor := w.endpoint.detachedAccepts } :=
    ⟨rfl, rfl, rfl, rfl, rfl⟩
  rw [World.accept]
  dsimp only
  split
  · exact takes_step (Step.ask hfresh)
  · rename_i conn hbuilt
    refine takes_step ?_
    rw [core_report, core_recordChosen, core_install]
    exact Step.accept hfresh conn source (hchosen conn hbuilt)

omit [Transport κ] [Socket σ] [Platform π κ] in
theorem core_answerStranger (w : World κ σ π) (source : Address) (d : Bytes) : core (w.answerStranger source d) = core w := rfl

omit [Transport κ] [Socket σ] in
theorem core_decide (w : World κ σ π) (packet : InitialPacket) (source : Address) :
    core (w.decide packet source).2 = core w := by
  rw [World.decide]
  split
  all_goals rfl

omit [Socket σ] in
theorem takes_begin (packet : InitialPacket) (source : Address)
    (hchosen : ∀ id, chosen w packet source = some id → may.chosen (core w) id) : Takes may w (w.begin packet source).2 := by
  have hcore := core_decide w packet source
  rw [chosen] at hchosen
  rw [World.begin]
  generalize w.decide packet source = result at hcore hchosen ⊢
  obtain ⟨⟨decision, retried⟩, w'⟩ := result
  dsimp only at hcore hchosen
  refine (takes_of_eq hcore).trans ?_
  rcases decision with original | datagram | _
  · refine takes_accept packet source original retried fun conn hbuilt => ?_
    rw [hcore]
    exact hchosen _ (by simp [hbuilt])
  · cases datagram with
    | none => exact takes_refl
    | some datagram => exact takes_of_eq (core_answerStranger w' source datagram)
  · exact takes_refl

omit [Transport κ] [Socket σ] in
theorem core_answerUnmatched (w : World κ σ π) (d : Bytes) (source : Address) : core (w.answerUnmatched d source) = core w := by
  rw [World.answerUnmatched]
  dsimp only
  split
  all_goals rfl

omit [Transport κ] [Socket σ] [Platform π κ] in
theorem core_announce (w : World κ σ π) (i : ℕ) : core (w.announce i) = core w := by
  rw [World.announce]
  split
  · rfl
  split
  all_goals rfl

/-- The connection that an operation gives to whoever asked for it. -/
def handedBy {β : Type} (op : Op κ β) (w : World κ σ π) : Option ℕ :=
  match op with
  | .handOver index => (w.driver.connections[index]?).bind fun tracked =>
    if (w.shareds tracked.shared).detach && (w.shareds tracked.shared).established && tracked.conn.isSome &&
      w.driver.detachable then some tracked.shared else none
  | _ => none

omit [Socket σ] in
theorem takes_handOver (hsilent : failsSilently (.handOver i : Op κ Unit) w = true → ∀ c, may.silent c)
    (hhanded : ∀ c, handedBy (.handOver i : Op κ Unit) w = some c → may.handed (core w) c) :
    Takes may w (w.handOver i) := by
  rw [World.handOver]
  split
  · exact takes_refl
  rename_i tracked h
  split
  · rename_i hwanted
    split
    · exact takes_refl
    rename_i conn hconn
    rw [Bool.and_eq_true] at hwanted
    split
    · rename_i hdetachable
      refine takes_step ?_
      have hmay : may.handed (core w) tracked.shared := hhanded _ (by simp [handedBy, h, hwanted, hconn, hdetachable])
      have hstep : Step may (core w) _ := Step.handOver h hconn hwanted.1 hwanted.2 hmay
      rw [← core_setTracked] at hstep
      exact hstep
    · rename_i hdetachable
      refine takes_fail ?_ _
      by_cases hover : isOver tracked = true
      · exact .inr ⟨i, tracked, h, rfl, hover⟩
      refine .inl (hsilent ?_ _)
      show connAt w i _ = true
      rw [connAt_eq h hconn]
      simp [hwanted, hdetachable, hover]
  · exact takes_refl

omit [Socket σ] [Platform π κ] in
theorem takes_applyRoutes (hrouted : may.routed (core w) i) : Takes may w (w.applyRoutes i) := by
  rw [World.applyRoutes]
  split
  · exact takes_refl
  rename_i tracked h
  exact takes_step (Step.applyRoutes h hrouted)

omit [Socket σ] [Platform π κ] in
theorem takes_remove (hremoved : may.removed (core w) i) : Takes may w (w.remove i) := by
  refine takes_step ?_
  rw [core_remove]
  exact Step.remove i hremoved

/-! ## Endings -/

omit [Socket σ] [Platform π κ] in
theorem takes_failAll (error : Error) (hsilent : ∀ c, may.silent c) : Takes may w (w.failAll error) := by
  rw [World.failAll]
  generalize w.driver.connections.toList = entries
  induction entries generalizing w with
  | nil => exact takes_refl
  | cons entry entries ih => exact (takes_failSilently (hsilent _) error).trans (ih (w := w.modifyShared _ _))

omit [Transport κ] [Socket σ] [Platform π κ] in
theorem fail_fail (s : ConnectionShared) (error : Error) : (s.fail error).fail error = s.fail error := by
  simp [ConnectionShared.fail]

omit [Transport κ] [Socket σ] [Platform π κ] in
theorem core_failEach (w : World κ σ π) (dials : List Dial) (error : Error) :
    core (dials.foldl (fun w dial => w.modifyShared dial.shared (·.fail error)) w) = { core w with
      shareds := fun c => if c ∈ dials.map (·.shared) then (w.shareds c).fail error else w.shareds c } := by
  induction dials generalizing w with
  | nil => rfl
  | cons dial dials ih =>
    rw [List.foldl_cons, ih]
    refine congrArg (fun shareds => ({ core w with shareds } : Core κ)) (funext fun c => ?_)
    by_cases hc : c = dial.shared
    · simp [World.modifyShared, hc, fail_fail]
    · simp [World.modifyShared, hc]

section
omit [Socket σ] [Platform π κ]

theorem takes_failDials (w : World κ σ π) (error : Error) : Takes may w (w.failDials error) := by
  refine takes_step ?_
  rw [World.failDials, core_failEach]
  exact Step.failDials error

theorem takes_drain (hdrained : may.drained (core w)) : Takes may w { w with
    endpoint := { w.endpoint with dials := [] }
    driver := { w.driver with dialing := w.endpoint.dials } } := takes_step (Step.drain hdrained)

theorem takes_onProgress (h : may.advances) (f : Progress → Progress) : Takes may w (w.onProgress f) :=
  takes_step (Step.advance h _)

end

/-! ## Operations -/

/-- The connection that an operation removes, by its index. -/
def removedBy {β : Type} : Op κ β → Option ℕ
  | .remove index => some index
  | _ => none

/-- The connection whose changes of route an operation applies, by its index. -/
def routedBy {β : Type} : Op κ β → Option ℕ
  | .applyRoutes index => some index
  | _ => none

def drains {β : Type} : Op κ β → Bool
  | .drainDials => true
  | _ => false

/-- The operations at which it is noted how far the driver has got. -/
def advances {β : Type} : Op κ β → Bool
  | .await | .drainDials | .pollRecv | .keys | .rearm | .failDials _ => true
  | _ => false

/-- What an operation is about to do is what its steps may do. -/
structure Permits {β : Type} (may : May κ) (op : Op κ β) (w : World κ σ π) : Prop where
  silent : (failsSilently op w || failsAll op) = true → ∀ c, may.silent c
  chosen : ∀ id, chosenBy op w = some id → may.chosen (core w) id
  dialled : ∀ c, dialledBy op w = some c → may.dialled (core w) c
  handed : ∀ c, handedBy op w = some c → may.handed (core w) c
  removed : ∀ i, removedBy op = some i → may.removed (core w) i
  routed : ∀ i, routedBy op = some i → may.routed (core w) i
  drained : drains op = true → may.drained (core w)
  completes : sends op w = true → may.completes
  advances : QuicEndpointSteps.advances op = true → may.advances

omit [Socket σ] in
theorem permits_all {β : Type} (op : Op κ β) (w : World κ σ π) : Permits {} op w := by
  constructor
  all_goals intros; exact True.intro

theorem takes_applyOp {β : Type} (op : Op κ β) (h : Permits may op w) : Takes may w (w.applyOp op).2 := by
  cases op with
  | await => exact takes_onProgress (h.advances rfl) _
  | drainDials => exact (takes_drain (h.drained rfl)).trans (takes_onProgress (h.advances rfl) _)
  | dial => exact takes_dial h.dialled
  | pollRecv =>
    have hsocket : Takes may w (w.onDriver ({ · with socket := (Socket.pollRecv w.driver.socket).2 })) := takes_of_eq rfl
    exact hsocket.trans (takes_onProgress (h.advances rfl) _)
  | route datagram => exact takes_refl
  | deliver index datagram => exact takes_deliver datagram fun hfails => h.silent (by rw [hfails]; rfl)
  | begin datagram source =>
    rw [World.applyOp]
    split
    · rename_i packet hpacket
      refine takes_begin packet source fun id hid => h.chosen id ?_
      simpa [chosenBy, hpacket] using hid
    · exact takes_of_eq (core_answerUnmatched w datagram source)
  | announce index => exact takes_of_eq (core_announce w index)
  | takeObserved index =>
    show Takes may w (w.takeObserved index).2
    rw [World.takeObserved]
    split
    · exact takes_refl
    · exact takes_share ⟨rfl, rfl, rfl, rfl, rfl, rfl, id⟩
  | setRetained index => exact takes_setRetained
  | markEstablished index =>
    show Takes may w (w.modifySharedOf index _)
    rw [World.modifySharedOf]
    split
    · exact takes_refl
    · rename_i tracked h
      exact takes_step (Step.establish h)
  | handOver index => exact takes_handOver (fun hfails => h.silent (by rw [hfails]; rfl)) h.handed
  | putBack index observed =>
    show Takes may w (w.modifySharedOf index _)
    rw [World.modifySharedOf]
    split
    · exact takes_refl
    · exact takes_share ⟨rfl, rfl, rfl, rfl, rfl, rfl, id⟩
  | keys =>
    have hplatform : Takes may w (w.onDriver fun d => { d with
        platform := (Platform.arrange (κ := κ) d.connections.keys d.platform).2 }) := takes_of_eq rfl
    exact hplatform.trans (takes_onProgress (h.advances rfl) _)
  | applyRoutes index => exact takes_applyRoutes (h.routed index rfl)
  | takeCommands index => exact takes_takeCommands
  | runCommand index => exact takes_runCommand (fun hfails => h.silent (by rw [hfails]; rfl)) h.completes
  | handleExpiry index => exact takes_handleExpiry fun hfails => h.silent (by rw [hfails]; rfl)
  | sendOutbox => exact takes_sendOutbox (h.completes rfl)
  | sendNext index => exact takes_sendNext (h.completes rfl) fun hfails => h.silent (by rw [hfails]; rfl)
  | isDone index => exact takes_refl
  | remove index => exact takes_remove (h.removed index rfl)
  | rearm => exact (takes_of_eq (core_rearm w)).trans (takes_onProgress (h.advances rfl) _)
  | hasPending => exact takes_refl
  | failAll error => exact takes_failAll error (h.silent rfl)
  | failDials error => exact (takes_failDials w error).trans (takes_onProgress (h.advances rfl) _)
  | markGone => exact takes_step Step.markGone

end Ops

end Takes

end Ngnet.QuicEndpointSteps
