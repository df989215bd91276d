import Ngnet.QuicRouting

/-!
# When identifiers are announced

A connection mints identifiers in its calls, and the datagrams that it produces from then on announce them. The
table of routes is told once in a pass, before the driver writes; what a write mints, and what the owner of a
detached connection mints behind that, waits until the next pass, and its datagrams do not. Where no datagram
goes out that announces an identifier which waits, a peer that answers to one is never taken for a stranger.
-/

namespace Ngnet.QuicAnnouncements
open QmuxVarints InterleavedPrograms QuicEndpoint QuicEndpointDriver QuicEndpointSteps QuicConnectionTable
open QuicRouting QuicScriptedHost
open QuicStreamWrites (StreamWrite)

variable {κ σ π : Type} {w w' w'' : World κ σ π} {i j c : ℕ} {tracked : Tracked κ} {conn : κ} {id d : Bytes}

/-! ## What a datagram announces -/

/-- An identifier that is in use does not wait for the table of routes to be told. -/
def Settled (w : World κ σ π) (c : ℕ) (id : Bytes) : Prop :=
  isLive id (updatesOf c w.history.noted) = true → .minted id ∉ (w.shareds c).routes ∧ ∃ i, SameEntry w i c

/-- What a datagram announces is settled. -/
def Ready (w : World κ σ π) (c : ℕ) (d : Bytes) : Prop := ∀ id, (c, id, d) ∈ w.history.announced → Settled w c id

/-- A change that is about neither identifiers nor datagrams. -/
structure Unsaid (w w' : World κ σ π) : Prop where
  noted : w'.history.noted = w.history.noted
  announced : w'.history.announced = w.history.announced
  completed : w'.history.completed = w.history.completed
  waiting : ∀ c, (w'.shareds c).routes = (w.shareds c).routes
  entries : ∀ i c, SameEntry w i c → SameEntry w' i c

theorem Unsaid.refl (w : World κ σ π) : Unsaid w w := ⟨rfl, rfl, rfl, fun _ => rfl, fun _ _ h => h⟩

theorem Unsaid.ready (h : Unsaid w w') (hready : Ready w c d) : Ready w' c d := by
  intro id hmem hlive
  rw [h.announced] at hmem
  rw [h.noted] at hlive
  obtain ⟨hwaits, i, hentry⟩ := hready id hmem hlive
  exact ⟨by rwa [h.waiting], i, h.entries i c hentry⟩

theorem unsaid_modifyShared {f : ConnectionShared → ConnectionShared} (hf : (f (w.shareds c)).routes = (w.shareds c).routes) :
    Unsaid w (w.modifyShared c f) := by
  refine ⟨rfl, rfl, rfl, fun e => ?_, fun _ _ h => h⟩
  by_cases he : e = c
  · subst he
    simpa [World.modifyShared] using hf
  · simp [World.modifyShared, he]

theorem unsaid_setTracked {tracked' : Tracked κ} (h : w.driver.connections[i]? = some tracked)
    (hshared : tracked'.shared = tracked.shared) : Unsaid w (w.setTracked i tracked') := by
  refine ⟨rfl, rfl, rfl, fun _ => rfl, fun j c hentry => ?_⟩
  obtain ⟨old, hold, rfl⟩ := hentry
  by_cases hj : j = i
  · subst hj
    obtain rfl : tracked = old := Option.some.inj (h.symm.trans hold)
    exact ⟨tracked', Std.TreeMap.getElem?_insert_self, hshared⟩
  · refine ⟨old, ?_, rfl⟩
    show (w.driver.connections.insert i tracked')[j]? = some old
    rw [Std.TreeMap.getElem?_insert, if_neg (by simpa using Ne.symm hj)]
    exact hold

theorem unsaid_modifyTracked {f : Tracked κ → Tracked κ} (hf : ∀ t, (f t).shared = t.shared) :
    Unsaid w (w.modifyTracked i f) := by
  rw [World.modifyTracked]
  split
  · rename_i tracked h
    exact unsaid_setTracked h (hf tracked)
  · exact .refl w

section Ops
variable [Transport κ] [Socket σ] [Platform π κ]

omit [Socket σ] [Platform π κ] in
theorem unsaid_setRetained : Unsaid w (w.setRetained i) := by
  rw [World.setRetained]
  split
  · exact .refl w
  split
  · exact .refl w
  · exact unsaid_modifyShared rfl

/-- The socket takes the datagram. -/
def takes (w : World κ σ π) (remote : Address) (d : Bytes) : Bool :=
  match (Socket.pollSend remote d w.driver.socket).1 with
  | .ready (.ok .complete) => true
  | _ => false

/-- Some identifier that the datagram announces waits, or its connection is tracked no longer. -/
def announcesEarly (w : World κ σ π) (c : ℕ) (d : Bytes) : Bool :=
  w.history.announced.any fun (c', id, d') => c' = c && d' = d && isLive id (updatesOf c w.history.noted) &&
    ((w.shareds c).routes.contains (.minted id) || !w.driver.connections.toList.any fun (_, tracked) => tracked.shared = c)

/-- Some identifier waits behind a call that sees these changes. -/
def mintsEarly (w : World κ σ π) (c : ℕ) (updates : List RouteUpdate) : Bool :=
  ((w.shareds c).routes ++ updates).any fun update =>
    match update with
    | .minted id => isLive id (updatesOf c w.history.noted ++ updates)
    | .retired _ => false

/-- The operation offers the socket a datagram of a connection, the socket takes it, and it announces an identifier
that waits. -/
def announcesUnrouted {β : Type} (op : Op κ β) (w : World κ σ π) : Bool :=
  match op with
  | .sendNext index =>
    match w.driver.connections[index]? with
    | none => false
    | some tracked =>
      match tracked.pending.or (w.shareds tracked.shared).takeOutbound.1, tracked.conn with
      | some datagram, _ => takes w tracked.remote datagram && announcesEarly w tracked.shared datagram
      | none, none => false
      | none, some conn =>
        match Transport.call (.writePkt w.now.1) conn with
        | ((.ok (.datagram len), buffer), notes, _) =>
          takes w tracked.remote (buffer.take len) && mintsEarly w tracked.shared (notes.filterMap Note.routing)
        | _ => false
  | .runCommand index =>
    match w.driver.taken with
    | .write stream data fin :: _ => connAt w index fun tracked conn =>
      let ((outcome, buffer), notes, _) := Transport.call (offer conn ⟨stream, data, fin⟩ w.now.1) conn
      tracked.pending.isNone && (World.produced outcome buffer).any (takes w tracked.remote) &&
        mintsEarly w tracked.shared (notes.filterMap Note.routing)
    | _ => false
  | .sendOutbox =>
    match w.driver.outbox, w.history.outboxOrigins.headD none with
    | (destination, datagram) :: _, some c => takes w destination datagram && announcesEarly w c datagram
    | _, _ => false
  | _ => false

def RoutesFirst {β : Type} (op : Op κ β) (w : World κ σ π) : Prop := announcesUnrouted op w = false

instance {β : Type} (op : Op κ β) (w : World κ σ π) : Decidable (RoutesFirst op w) := inferInstanceAs (Decidable (_ = false))

/-! ## What goes out -/

/-- The datagrams of connections whose sends were completed since. -/
def completedSince (w w' : World κ σ π) : List (Option ℕ × Bytes) :=
  w'.history.completed.drop w.history.completed.length

/-- Nothing went out since that announces an identifier which waits. -/
def Announced (w w' : World κ σ π) : Prop :=
  ∀ c d, (some c, d) ∈ completedSince w w' → Ready w' c d

omit [Transport κ] [Socket σ] [Platform π κ] in
theorem announced_of_eq (h : w'.history.completed = w.history.completed) : Announced w w' := by
  intro c d hmem
  simp [completedSince, h] at hmem

omit [Transport κ] [Socket σ] [Platform π κ] in
theorem Announced.unsaid (h : Announced w w') (hunsaid : Unsaid w' w'') : Announced w w'' := by
  intro c d hmem
  rw [completedSince, hunsaid.completed] at hmem
  exact hunsaid.ready (h c d hmem)

omit [Transport κ] [Platform π κ] in
theorem announced_pollSend (hcompleted : w'.history.completed = w.history.completed)
    (hready : takes w' tracked.remote d = true → Ready w' tracked.shared d) : Announced w (w'.pollSend tracked d).2 := by
  rw [World.pollSend]
  dsimp only
  split
  · rename_i hcomplete
    have htakes : takes w' tracked.remote d = true := by
      rw [takes, hcomplete]
    intro c e hmem
    have hmem : (some c, e) ∈ (w'.history.completed ++ [(some tracked.shared, d)]).drop w.history.completed.length := hmem
    rw [hcompleted, List.drop_left, List.mem_singleton] at hmem
    obtain ⟨rfl, rfl⟩ : c = tracked.shared ∧ e = d := by simpa using hmem
    exact hready htakes
  all_goals exact announced_of_eq hcompleted

omit [Transport κ] [Socket σ] [Platform π κ] in
theorem ready_of_early (h : announcesEarly w c d = false) : Ready w c d := by
  intro id hmem hlive
  have hnone := List.any_eq_false.mp h (c, id, d) hmem
  simp only [decide_true, hlive, Bool.true_and, Bool.or_eq_true, not_or, Bool.not_eq_true'] at hnone
  obtain ⟨hwaits, htracked⟩ := hnone
  exact ⟨fun hmem => hwaits (List.contains_iff_mem.mpr hmem), by simpa [SameEntry] using htracked⟩

omit [Socket σ] [Platform π κ] in
theorem settled_callConn {α : Type} (call : ConnCall α)
    (h : mintsEarly w tracked.shared ((Transport.call call conn).2.1.filterMap Note.routing) = false) (id : Bytes) :
    Settled (w.callConn i tracked conn call).2 tracked.shared id := by
  have hrouted : ((w.callConn i tracked conn call).2.shareds tracked.shared).routes =
      (w.shareds tracked.shared).routes ++ (Transport.call call conn).2.1.filterMap Note.routing := by
    simp [World.callConn, World.recordRoutes, World.onHistory, World.modifyShared, World.setTracked, World.onDriver, note_routes]
  have hnoted : updatesOf tracked.shared (w.callConn i tracked conn call).2.history.noted =
      updatesOf tracked.shared w.history.noted ++ (Transport.call call conn).2.1.filterMap Note.routing := by
    simp [World.callConn, World.recordRoutes, World.onHistory, World.modifyShared, World.setTracked, World.onDriver,
      updatesOf_noted]
  intro hlive
  refine ⟨fun hmem => ?_, i, _, connections_callConn w i tracked conn call, rfl⟩
  rw [hrouted] at hmem
  rw [hnoted] at hlive
  exact List.any_eq_false.mp h _ hmem hlive

/-! ### A datagram of a connection -/

omit [Transport κ] [Socket σ] [Platform π κ] in
theorem routes_takeOutbound (shared : ConnectionShared) : shared.takeOutbound.2.routes = shared.routes := by
  rw [ConnectionShared.takeOutbound]
  split
  all_goals rfl

/-- What the next datagram of a connection is, and that it is ready if the socket takes it. -/
structure Offered (w w' : World κ σ π) (i : ℕ) (d : Bytes) (early : Bool) : Prop where
  completed : w'.history.completed = w.history.completed
  socket : w'.driver.socket = w.driver.socket
  ready : ∀ tracked, w'.driver.connections[i]? = some tracked → early = false → takes w tracked.remote d = true →
    Ready w' tracked.shared d

theorem offered_nextDatagram (w : World κ σ π) (i : ℕ) :
    match w.nextDatagram i with
    | (none, w') => w'.history.completed = w.history.completed
    | (some d, w') => Offered w w' i d (announcesUnrouted (.sendNext i : Op κ Disposition) w) := by
  rw [World.nextDatagram]
  have hconnections : w.now.2.driver.connections = w.driver.connections := rfl
  have hshareds : w.now.2.shareds = w.shareds := rfl
  have hsocket : w.now.2.driver.socket = w.driver.socket := rfl
  have hhistory : w.now.2.history = w.history := rfl
  have hearly : ∀ c d, announcesEarly w.now.2 c d = announcesEarly w c d := fun _ _ => rfl
  have hmints : ∀ c updates, mintsEarly w.now.2 c updates = mintsEarly w c updates := fun _ _ => rfl
  rw [announcesUnrouted]
  generalize w.now = result at hconnections hshareds hsocket hhistory hearly hmints ⊢
  obtain ⟨now, w'⟩ := result
  dsimp only at hconnections hshareds hsocket hhistory hearly hmints ⊢
  have hcompleted : w'.history.completed = w.history.completed := congrArg History.completed hhistory
  rw [← hconnections, ← hshareds]
  cases h : w'.driver.connections[i]? with
  | none => exact hcompleted
  | some tracked =>
    dsimp only
    cases hpending : tracked.pending with
    | some pending =>
      refine ⟨hcompleted, hsocket, fun tracked' h' hnot htakes => ?_⟩
      obtain rfl : { tracked with pending := none } = tracked' :=
        Option.some.inj (Std.TreeMap.getElem?_insert_self.symm.trans h')
      have hunsaid : Unsaid w' (w'.setTracked i { tracked with pending := none }) := unsaid_setTracked h rfl
      refine hunsaid.ready (ready_of_early ?_)
      rw [hearly]
      exact (Bool.and_eq_false_imp.mp hnot) htakes
    | none =>
      dsimp only
      cases hqueued : (w'.shareds tracked.shared).takeOutbound with
      | mk queued shared =>
      cases queued with
      | some queued =>
        refine ⟨hcompleted, hsocket, fun tracked' h' hnot htakes => ?_⟩
        obtain rfl : tracked = tracked' := Option.some.inj (h.symm.trans h')
        have hunsaid : Unsaid w' (w'.modifyShared tracked.shared fun _ => shared) := by
          have hroutes := routes_takeOutbound (w'.shareds tracked.shared)
          rw [hqueued] at hroutes
          exact unsaid_modifyShared hroutes
        refine hunsaid.ready (ready_of_early ?_)
        rw [hearly]
        exact (Bool.and_eq_false_imp.mp hnot) htakes
      | none =>
        dsimp only
        cases hconn : tracked.conn with
        | none => exact hcompleted
        | some conn =>
          simp only [Option.or_none]
          have hsettled : mintsEarly w' tracked.shared ((Transport.call (.writePkt now) conn).2.1.filterMap Note.routing) = false →
              ∀ id, Settled (w'.callConn i tracked conn (.writePkt now)).2 tracked.shared id := settled_callConn _
          have hentry := connections_callConn w' i tracked conn (.writePkt now)
          rw [World.writeNext]
          generalize hcalled : w'.callConn i tracked conn (.writePkt now) = called at hsettled hentry ⊢
          simp only [World.callConn] at hcalled
          subst hcalled
          generalize Transport.call (.writePkt now) conn = answer at hsettled hentry ⊢
          obtain ⟨⟨outcome, buffer⟩, notes, conn'⟩ := answer
          rcases outcome with error | len | _ | _
          · exact hcompleted
          · refine ⟨hcompleted, hsocket, fun tracked' h' hnot htakes => ?_⟩
            obtain rfl := Option.some.inj (hentry.symm.trans h')
            have hmint := (Bool.and_eq_false_imp.mp hnot) htakes
            rw [← hmints] at hmint
            exact fun id _ => hsettled hmint id
          · exact hcompleted
          · exact hcompleted

theorem announced_sendNext (h : RoutesFirst (.sendNext i : Op κ Disposition) w) : Announced w (w.sendNext i).2 := by
  rw [RoutesFirst] at h
  have hoffered := offered_nextDatagram w i
  rw [World.sendNext]
  generalize w.nextDatagram i = result at hoffered ⊢
  obtain ⟨datagram, w'⟩ := result
  cases datagram with
  | none => exact announced_of_eq hoffered
  | some datagram =>
    dsimp only at hoffered ⊢
    split
    · exact announced_of_eq hoffered.completed
    rename_i tracked htracked
    have hsent : Announced w (w'.pollSend tracked datagram).2 := by
      refine announced_pollSend hoffered.completed fun htakes => hoffered.ready tracked htracked h ?_
      rwa [takes, hoffered.socket] at htakes
    generalize w'.pollSend tracked datagram = sent at hsent ⊢
    obtain ⟨disposition, w''⟩ := sent
    cases disposition with
    | refused => exact hsent.unsaid (unsaid_modifyTracked fun _ => rfl)
    | nothing => exact hsent
    | sent => exact hsent
    | failed => exact hsent

/-! ### A write -/

omit [Platform π κ] in
theorem announced_settleWrite (hcompleted : w'.history.completed = w.history.completed) (write : Write)
    (outcome : Except CoreError StreamWrite) (buffer : Bytes)
    (hready : ∀ d, World.produced outcome buffer = some d → takes w' tracked.remote d = true →
      ∀ id, Settled w' tracked.shared id) : Announced w (w'.settleWrite i tracked write outcome buffer) := by
  have hsent : Announced w (w'.sendProduced i tracked (World.produced outcome buffer)) := by
    cases hproduced : World.produced outcome buffer with
    | none => exact announced_of_eq hcompleted
    | some datagram =>
      have hpolled : Announced w ((w'.recordProduced (some tracked.shared) datagram).pollSend tracked datagram).2 :=
        announced_pollSend hcompleted fun htakes id _ => hready datagram hproduced htakes id
      rw [World.sendProduced, World.sendOrKeep]
      generalize (w'.recordProduced (some tracked.shared) datagram).pollSend tracked datagram = result at hpolled ⊢
      obtain ⟨disposition, w''⟩ := result
      have hkept : Announced w (w''.modifyTracked i ({ · with pending := some datagram })) :=
        hpolled.unsaid (unsaid_modifyTracked fun _ => rfl)
      cases disposition with
      | sent => exact hpolled.unsaid unsaid_setRetained
      | nothing => exact hkept.unsaid unsaid_setRetained
      | refused => exact hkept.unsaid unsaid_setRetained
      | failed => exact hkept.unsaid unsaid_setRetained
  cases outcome with
  | error error =>
    have hfailed : Unsaid _ ((w'.sendProduced i tracked (World.produced (.error error) buffer)).modifyShared tracked.shared
      (·.fail (ofCore error))) := unsaid_modifyShared rfl
    exact hsent.unsaid hfailed
  | ok outcome =>
    rw [World.settleWrite]
    split
    · exact hsent.unsaid (unsaid_modifyShared rfl)
    · exact hsent

omit [Platform π κ] in
theorem announced_offerWrite (hcompleted : w'.history.completed = w.history.completed) (write : Write) (now : ℕ)
    (h : ((World.produced (Transport.call (offer conn write now) conn).1.1 (Transport.call (offer conn write now) conn).1.2).any
      fun datagram => takes w' tracked.remote datagram) = true →
        mintsEarly w' tracked.shared ((Transport.call (offer conn write now) conn).2.1.filterMap Note.routing) = false) :
    Announced w (w'.offerWrite i tracked conn write now) := by
  have hsettled : mintsEarly w' tracked.shared ((Transport.call (offer conn write now) conn).2.1.filterMap Note.routing) = false →
      ∀ id, Settled (w'.callConn i tracked conn (offer conn write now)).2 tracked.shared id := settled_callConn _
  rw [World.offerWrite, ← offer]
  refine announced_settleWrite ?_ write _ _ fun d hd htakes id => ?_
  · exact hcompleted
  · refine hsettled (h ?_) id
    rw [Option.any_eq_true]
    exact ⟨d, hd, htakes⟩

theorem completed_applyOp {β : Type} (op : Op κ β) (h : sends op w = false) :
    (w.applyOp op).2.history.completed = w.history.completed := by
  have hall := permits_all op w
  have htakes : Takes { completes := sends op w = true } w (w.applyOp op).2 := takes_applyOp op { hall with completes := id }
  refine htakes.invariant (I := fun s => s.completed = (core w).completed) (fun hkept hstep => ?_) rfl
  rw [← hkept]
  cases hstep with
  | complete hmay sent =>
    rw [h] at hmay
    cases hmay
  | _ => rfl

theorem announced_writeStream (write : Write)
    (h : connAt w i (fun tracked conn =>
      tracked.pending.isNone && (World.produced (Transport.call (offer conn write w.now.1) conn).1.1
        (Transport.call (offer conn write w.now.1) conn).1.2).any (takes w tracked.remote) &&
          mintsEarly w tracked.shared ((Transport.call (offer conn write w.now.1) conn).2.1.filterMap Note.routing)) = false) :
    Announced w (w.writeStream i write) := by
  rw [World.writeStream]
  have hconnections : w.now.2.driver.connections = w.driver.connections := rfl
  have hcompleted : w.now.2.history.completed = w.history.completed := rfl
  have htakes : ∀ remote d, takes w.now.2 remote d = takes w remote d := fun _ _ => rfl
  have hmints : ∀ c updates, mintsEarly w.now.2 c updates = mintsEarly w c updates := fun _ _ => rfl
  generalize w.now = result at hconnections hcompleted htakes hmints h ⊢
  obtain ⟨now, w'⟩ := result
  dsimp only at hconnections hcompleted htakes hmints h ⊢
  split
  · exact announced_of_eq hcompleted
  rename_i tracked htracked
  split
  · exact (announced_of_eq hcompleted).unsaid (unsaid_modifyShared rfl)
  rename_i hpending
  split
  · exact announced_of_eq hcompleted
  rename_i conn hconn
  refine announced_offerWrite hcompleted write now fun hany => ?_
  rw [hconnections] at htracked
  rw [connAt_eq htracked hconn] at h
  rw [hmints]
  refine Bool.and_eq_false_imp.mp h ?_
  rw [Bool.and_eq_true]
  refine ⟨by simpa using hpending, ?_⟩
  simpa only [htakes] using hany

theorem announced_runCommand (h : RoutesFirst (.runCommand i : Op κ Bool) w) : Announced w (w.runCommand i).2 := by
  by_cases hsends : sends (.runCommand i : Op κ Bool) w = false
  · exact announced_of_eq (completed_applyOp (.runCommand i) hsends)
  rw [sends] at hsends
  rw [RoutesFirst, announcesUnrouted] at h
  rw [World.runCommand]
  split at hsends
  · rename_i stream data fin taken htaken
    rw [htaken] at h ⊢
    dsimp only
    split
    · exact announced_of_eq rfl
    split
    · exact announced_of_eq rfl
    · exact announced_writeStream (w := w.onDriver ({ · with taken })) ⟨stream, data, fin⟩ h
  · exact (hsends rfl).elim

theorem announced_sendOutbox (h : RoutesFirst (.sendOutbox : Op κ Disposition) w) : Announced w w.sendOutbox.2 := by
  rw [World.sendOutbox]
  split
  · exact announced_of_eq rfl
  rename_i destination datagram outbox houtbox
  dsimp only
  split
  · rename_i hcomplete
    intro c d hmem
    have hmem : (some c, d) ∈ (w.history.completed ++ [(w.history.outboxOrigins.headD none, datagram)]).drop
      w.history.completed.length := hmem
    rw [List.drop_left, List.mem_singleton] at hmem
    obtain ⟨horigin, rfl⟩ : some c = w.history.outboxOrigins.headD none ∧ d = datagram := by simpa using hmem
    have htakes : takes w destination d = true := by
      rw [takes, hcomplete]
    rw [RoutesFirst, announcesUnrouted, houtbox, ← horigin] at h
    exact ready_of_early (Bool.and_eq_false_imp.mp h htakes)
  all_goals exact announced_of_eq rfl

theorem announced_applyOp {β : Type} (op : Op κ β) (h : RoutesFirst op w) : Announced w (w.applyOp op).2 := by
  by_cases hsends : sends op w = false
  · exact announced_of_eq (completed_applyOp op hsends)
  cases op
  case sendOutbox => exact announced_sendOutbox h
  case sendNext index => exact announced_sendNext h
  case runCommand index => exact announced_runCommand h
  all_goals exact (hsends rfl).elim

/-! ## Runs -/

/-- Once a send completes, whatever its datagram announces and was not retired since leads to its connection. -/
def AnnouncesRouted {β : Type} (op : Op κ β) (w : World κ σ π) : Prop :=
  ∀ c d, (some c, d) ∈ completedSince w (w.applyOp op).2 → ∀ id, (c, id, d) ∈ (w.applyOp op).2.history.announced →
    isLive id (updatesOf c (w.applyOp op).2.history.noted) = true →
      ∃ i tracked, (w.applyOp op).2.driver.connections[i]? = some tracked ∧ tracked.shared = c ∧
        lookup (w.applyOp op).2 id = some i

theorem announcesRouted_of_first {β : Type} {op : Op κ β} (h : Routed (core (w.applyOp op).2)) (hfirst : RoutesFirst op w) :
    AnnouncesRouted op w := by
  intro c d hmem id hannounced hlive
  obtain ⟨hwaits, i, tracked, hi, rfl⟩ := announced_applyOp op hfirst c d hmem id hannounced hlive
  refine ⟨i, tracked, hi, rfl, (lookup_iff h).mpr ((h.routes id i).mpr ⟨Option.isSome_iff_exists.mpr ⟨tracked, hi⟩, ?_⟩)⟩
  have hnoted := h.noted i tracked hi
  change updatesOf tracked.shared (w.applyOp op).2.history.noted = _ at hnoted
  rw [hnoted, isLive_append] at hlive
  exact (live_or_minted _ hlive).resolve_right hwaits

variable {config : QuicEndpointDriver.Config} {fuel : ℕ} {socket : σ} {platform : π} {detachable : Bool}
  {choices : List (Choice Action)}

end Ops

/-! ## A write that mints what it announces -/

/-- A connection mints an identifier as its first packet is read, or as it writes its first datagram. -/
def minter (writing : Bool) : ScriptedWorld :=
  let minted : List Note := [.observeRoute (.minted [9])]
  built { arriving := [(addressedTo 7, 0)] }
    { conns := [{
      scids := [[1]]
      reads := [(.ok .processed, if writing then [] else minted)]
      writes := [(.ok (.datagram 1), [3], if writing then minted else [])] }] } false

/-- The datagram that the driver is about to send announces an identifier that leads nowhere. -/
def straysNext (c : InterleavedPrograms.Config (Op ScriptedConn) Error Unit ScriptedWorld) : Bool :=
  match c.stage with
  | .running (.act (.sendNext index) _) =>
    let w := (c.state.applyOp (.sendNext index)).2
    (completedSince c.state w).any fun (origin, datagram) => w.history.announced.any fun (d, id, datagram') =>
      origin = some d && datagram' = datagram && isLive id (updatesOf d w.history.noted) && (lookup w id).isNone
  | _ => false

theorem straysNext_of_next {c : InterleavedPrograms.Config (Op ScriptedConn) Error Unit ScriptedWorld}
    (h : c.Next AnnouncesRouted) : straysNext c = false := by
  obtain ⟨stage, w⟩ := c
  rcases stage with (_ | _ | _ | ⟨op, next⟩) | _ | _
  case running.act =>
    cases op
    case sendNext index =>
      refine Bool.eq_false_iff.mpr fun hstrays => ?_
      obtain ⟨⟨origin, datagram⟩, hmem, hany⟩ := List.any_eq_true.mp hstrays
      obtain ⟨⟨d, id, datagram'⟩, hannounced, hlost⟩ := List.any_eq_true.mp hany
      simp only [Bool.and_eq_true, decide_eq_true_eq] at hlost
      obtain ⟨⟨⟨rfl, rfl⟩, hlive⟩, hnone⟩ := hlost
      obtain ⟨i, tracked, -, -, hlookup⟩ := h d datagram' hmem id hannounced hlive
      rw [hlookup] at hnone
      cases hnone
    all_goals rfl
  all_goals rfl

end Ngnet.QuicAnnouncements
