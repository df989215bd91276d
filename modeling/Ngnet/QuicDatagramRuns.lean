import Ngnet.QuicDatagrams
import Ngnet.QuicHandleSteps
import Ngnet.QuicScriptedHost

/-!
# Datagrams over whole runs

What handles and owners do takes steps of the ledger, too. With that, the order of the datagrams of a
connection, and that each of them is in one place, hold in every run in which no close goes to the outbox
behind the driver's back, and nothing is removed that still holds a datagram.
-/

namespace Ngnet.QuicDatagramRuns
open QmuxVarints InterleavedPrograms QuicEndpoint QuicEndpointDriver QuicDatagramLedger QuicDatagrams QuicScriptedHost

variable {κ σ π : Type} {w w' : World κ σ π} {i c : ℕ} {may : Kind → Prop}

/-! ## Handles and owners -/

theorem moves_setHandle (handle : Option Handle) : Moves may w (w.setHandle c handle) := moves_of_eq rfl id

theorem moves_command (command : Command) : Moves may w (w.command c command) := by
  rw [World.command]
  split
  · exact moves_modifyShared fun _ => rfl
  · exact moves_refl

theorem moves_commandIfOpen (command : Command) : Moves may w (w.commandIfOpen c command) := by
  rw [World.commandIfOpen]
  split
  · exact moves_refl
  · exact moves_command command

theorem moves_connect (remote : Address) (serverName : Option String) (detach : Bool) :
    Moves may w (w.connect remote serverName detach) := by
  rw [World.connect]
  dsimp only
  generalize (if detach then w.created :: w.detaching else w.detaching) = detaching
  split
  · have hask : Moves may w (({ w.ask { detach } with detaching } : World κ σ π).onHistory fun h =>
        { h with dialled := w.created :: h.dialled }) := moves_ask rfl
    exact hask.trans (moves_modifyShared fun _ => rfl)
  · have hstep : Step may (ledger w) { ledger (w.ask { detach }) with dials := (ledger w).dials ++ [w.created] } :=
      step_ask w rfl
    refine moves_step ?_ id
    have hdials : (ledger w).dials ++ [w.created] = (w.driver.dialing ++ w.endpoint.dials ++
        (w.connecting ++ [(⟨remote, serverName, w.created⟩ : Dial)])).map (·.shared) := by
      simp [ledger]
    rw [hdials] at hstep
    exact hstep

theorem moves_absorb (handle : Handle) : Moves may w (w.absorb c handle).2 := moves_modifyShared fun _ => rfl

theorem moves_write (write : Write) : Moves may w (w.write c write) := by
  rw [World.write]
  split
  · exact moves_refl
  rename_i handle _
  split
  · exact moves_refl
  have habsorb : Moves may w (w.absorb c handle).2 := moves_absorb handle
  dsimp only
  split
  · exact habsorb.trans (moves_setHandle _)
  · exact habsorb.trans (moves_setHandle _)

theorem moves_pushWrite : Moves may w (w.pushWrite c) := by
  rw [World.pushWrite]
  split
  · exact moves_refl
  split
  · exact moves_refl
  rename_i write _
  have hpush : Moves may w (w.modifyShared c (·.push (.write write.stream write.data write.fin))) :=
    moves_modifyShared fun _ => rfl
  exact hpush.trans (moves_of_eq rfl id)

theorem moves_read (stream : QmuxStreams.StreamId) : Moves may w (w.read c stream) := by
  rw [World.read]
  split
  · exact moves_refl
  rename_i handle _
  have habsorb : Moves may w (w.absorb c handle).2 := moves_absorb handle
  dsimp only
  split
  · exact habsorb.trans (moves_setHandle _)
  rename_i slot _
  split
  · exact habsorb.trans (moves_setHandle _)
  · have hcredit : Moves may (w.absorb c handle).2 ((w.absorb c handle).2.modifyShared c
        (·.push (.extendCredit stream slot.bytes.length))) := moves_modifyShared fun _ => rfl
    exact (habsorb.trans hcredit).trans (moves_setHandle _)

theorem moves_acceptStream : Moves may w (w.acceptStream c) := by
  rw [World.acceptStream]
  split
  · exact moves_refl
  rename_i handle _
  exact (moves_absorb handle).trans (moves_setHandle _)

theorem moves_own {f : ConnectionShared → ConnectionShared} (hf : ∀ s, queueOf (f s) = queueOf s) :
    Moves may w (w.own c f) := by
  rw [World.own]
  split
  · exact moves_modifyShared hf
  · exact moves_refl

theorem moves_markTerminal : Moves may w (w.modifyShared c (·.markTerminal)) := by
  have hstep : Step may (ledger w) _ := Step.finish c
  refine moves_step ?_ id
  rw [ledger_modifyShared]
  exact hstep

theorem moves_detached {ready : List (Detached κ)} {detaching owned : List ℕ}
    (h : owned ++ ready.map (·.shared) ⊆ w.owned ++ w.ready.map (·.shared)) :
    Moves may w { w with ready, detaching, owned } := by
  have hstep : Step may (ledger w) _ := Step.own h
  exact moves_step hstep id

theorem moves_collect (key : Option ℕ) : Moves may w (w.collect key) := by
  rw [World.collect]
  split
  · split
    · exact moves_refl
    rename_i d hfind
    have hmem := List.mem_of_find?_eq_some hfind
    refine moves_detached fun c hc => ?_
    rcases List.mem_append.mp hc with hc | hc
    · rcases List.mem_cons.mp hc with rfl | hc
      · exact List.mem_append_right _ (List.mem_map_of_mem hmem)
      · exact List.mem_append_left _ hc
    · obtain ⟨d', hd', rfl⟩ := List.mem_map.mp hc
      exact List.mem_append_right _ (List.mem_map_of_mem (List.mem_of_mem_eraseP hd'))
  · exact moves_refl

theorem moves_giveUp : Moves may w (w.giveUp c) := by
  rw [World.giveUp]
  split
  · exact moves_of_eq rfl id
  · exact moves_refl

theorem moves_abandon : Moves may w (w.abandon c) := by
  rw [World.abandon]
  split
  · dsimp only
    split
    · exact moves_of_eq rfl id
    · rename_i d _
      have hterminal : Moves may w (w.modifyShared d.shared (·.markTerminal)) := moves_markTerminal
      have hsub : w.owned ++ (w.ready.eraseP (·.key = some c)).map (·.shared) ⊆ w.owned ++ w.ready.map (·.shared) := by
        intro c hc
        rcases List.mem_append.mp hc with hc | hc
        · exact List.mem_append_left _ hc
        · obtain ⟨d, hd, rfl⟩ := List.mem_map.mp hc
          exact List.mem_append_right _ (List.mem_map_of_mem (List.mem_of_mem_eraseP hd))
      exact hterminal.trans (moves_step (Step.own hsub) id)
  · exact moves_refl

theorem moves_markAbandoned : Moves may w (w.markAbandoned c) := by
  rw [World.markAbandoned]
  split
  · have hterminal : Moves may w (w.modifyShared c (·.markTerminal)) := moves_markTerminal
    exact hterminal.trans (moves_of_eq rfl id)
  · exact moves_refl

/-- What an owner queues is one step, if there is room for it. -/
def Queues (w w' : World κ σ π) (c : ℕ) : Prop :=
  (Matched w → Matched w') ∧ (ledger w' = ledger w ∨ ∀ may, may (.queue c) → Step may (ledger w) (ledger w'))

theorem queues_send (d : Bytes) : Queues w (w.send c d) c := by
  rw [World.send]
  split
  · rename_i hsend
    obtain ⟨howned, hroom⟩ : c ∈ w.owned ∧ (w.shareds c).outboundHasRoom = true := by simpa using hsend
    have hqueue : queueOf ((w.shareds c).queueOutbound d) =
        { (ledger w).queues c with outbound := ((ledger w).queues c).outbound ++ [d] } := by
      simp [ConnectionShared.queueOutbound, hroom, queueOf, ledger]
    have hledger := ledger_modifyShared w c (·.queueOutbound d)
    rw [hqueue] at hledger
    refine ⟨id, .inr fun may hmay => ?_⟩
    have hstep : Step may (ledger w) _ := Step.queue hmay (List.mem_append_left _ howned) d
    show Step may _ ((ledger (w.modifyShared c (·.queueOutbound d))).produce (some c, d))
    rw [hledger]
    exact hstep
  · exact ⟨id, .inl rfl⟩

theorem queues_sendClose (d : Bytes) : Queues w (w.sendClose c d) c := by
  rw [World.sendClose]
  split
  · rename_i hsend
    obtain ⟨howned, hclose⟩ : c ∈ w.owned ∧ (w.shareds c).closeOutbound = none := by simpa using hsend
    have hqueue : queueOf ((w.shareds c).queueCloseOutbound d) = { (ledger w).queues c with close := some d } := by
      simp [ConnectionShared.queueCloseOutbound, hclose, queueOf, ledger]
    have hledger := ledger_modifyShared w c (·.queueCloseOutbound d)
    rw [hqueue] at hledger
    refine ⟨id, .inr fun may hmay => ?_⟩
    have hstep : Step may (ledger w) _ := Step.queueClose hmay (List.mem_append_left _ howned) hclose d
    show Step may _ ((ledger (w.modifyShared c (·.queueCloseOutbound d))).produce (some c, d))
    rw [hledger]
    exact hstep
  · exact ⟨id, .inl rfl⟩

theorem send_of_not_owned (h : c ∉ w.owned) (d : Bytes) : w.send c d = w ∧ w.sendClose c d = w := by
  simp [World.send, World.sendClose, h]

theorem moves_pushDial : Moves may w (w.pushDial c) := by
  rw [World.pushDial]
  split
  · exact moves_refl
  · rename_i dial hfind
    have hperm : (ledger (w.pushDial c)).dials.Perm (ledger w).dials := asked_pushDial c w
    rw [World.pushDial, hfind] at hperm
    exact moves_step (Step.forget hperm.subperm) id

theorem moves_takeReady : Moves may w (w.act .takeReady) := by
  rw [World.act]
  generalize World.takeReady w.shareds w.endpoint.accepted.length w.endpoint.accepted = result
  obtain ⟨found, accepted⟩ := result
  have haccepted : Moves may w { w with endpoint := { w.endpoint with accepted } } := moves_of_eq rfl id
  cases found with
  | some c => exact haccepted.trans (moves_setHandle _)
  | none => exact haccepted

theorem queues_act {action : Action} (h : queues w action = some c) : Queues w (w.act action) c := by
  cases action with
  | send c' d =>
    obtain ⟨-, heq⟩ := Option.ite_none_right_eq_some.mp h
    cases heq
    exact queues_send d
  | sendClose c' d =>
    obtain ⟨-, heq⟩ := Option.ite_none_right_eq_some.mp h
    cases heq
    exact queues_sendClose d
  | _ => cases h

theorem moves_act (action : Action) (h : queues w action = none) : Moves may w (w.act action) := by
  cases action with
  | connect remote serverName detach => exact moves_connect remote serverName detach
  | pushDial c => exact moves_pushDial
  | acceptDetached => exact moves_of_eq rfl id
  | connected c =>
    rw [World.act]
    split
    · exact moves_setHandle _
    · exact moves_refl
  | takeReady => exact moves_takeReady
  | openStream c bidi => exact moves_command _
  | takeOpened c directionality => exact moves_modifyShared fun _ => rfl
  | write c write => exact moves_write write
  | pushWrite c => exact moves_pushWrite
  | read c stream => exact moves_read stream
  | acceptStream c => exact moves_acceptStream
  | resetStream c stream code => exact moves_commandIfOpen _
  | stopSending c stream code => exact moves_commandIfOpen _
  | close c code reason => exact moves_command _
  | dropHandle c => exact (moves_commandIfOpen _).trans (moves_setHandle _)
  | collect key => exact moves_collect key
  | giveUp c => exact moves_giveUp
  | abandon c => exact moves_abandon
  | markAbandoned c => exact moves_markAbandoned
  | takeInbound c => exact moves_own fun _ => rfl
  | takeObserved c => exact moves_own fun _ => rfl
  | note c notes =>
    rw [World.act, World.note]
    split
    · have hnote : Moves may w (w.modifyShared c fun s => notes.foldl .note s) := moves_modifyShared (queueOf_notes notes)
      exact hnote.trans (moves_of_eq rfl id)
    · exact moves_refl
  | send c datagram =>
    have hnot : c ∉ w.owned := fun howned => by simp [queues, howned] at h
    rw [World.act, (send_of_not_owned hnot datagram).1]
    exact moves_refl
  | sendClose c datagram =>
    have hnot : c ∉ w.owned := fun howned => by simp [queues, howned] at h
    rw [World.act, (send_of_not_owned hnot datagram).2]
    exact moves_refl
  | release c =>
    rw [World.act, World.own]
    split
    · exact moves_markTerminal
    · exact moves_refl
  | dropDetached c =>
    refine moves_detached fun c' hc' => ?_
    rcases List.mem_append.mp hc' with hc' | hc'
    · exact List.mem_append_left _ (List.mem_of_mem_erase hc')
    · exact List.mem_append_right _ hc'

/-! ## The order of a connection's datagrams -/

section Runs
variable [Transport κ] [Socket σ] [Platform π κ] {config : Config} {fuel : ℕ} {socket : σ} {platform : π}
  {detachable : Bool} {choices : List (Choice Action)}

/-- The datagrams of each connection completed in the order in which they were produced, and what waits for
the socket was produced behind them, in the order in which it is going to be sent. -/
structure InOrder (w : World κ σ π) : Prop where
  sent : ∀ c, (sentBy (some c) w.history.completed).Sublist (sentBy (some c) w.history.produced)
  waiting : ∀ (i : ℕ) (tracked : Tracked κ), w.driver.connections[i]? = some tracked →
    (sentBy (some tracked.shared) w.history.completed ++ tracked.pending.toList ++
      ((w.shareds tracked.shared).outbound ++ (w.shareds tracked.shared).closeOutbound.toList)).Sublist
      (sentBy (some tracked.shared) w.history.produced)

/-- The operation writes a close while the socket has yet to take a datagram of the connection. -/
def diverts {β : Type} (op : Op κ β) (w : World κ σ π) : Bool :=
  match op with
  | .runCommand index => divertsNext w index
  | _ => false

def ClosesWithSlot {β : Type} (op : Op κ β) (w : World κ σ π) : Prop := diverts op w = false

instance {β : Type} (op : Op κ β) (w : World κ σ π) : Decidable (ClosesWithSlot op w) :=
  inferInstanceAs (Decidable (_ = false))

/-- No owner queues a datagram behind its close. -/
def QueuesBeforeClose (action : Action) (w : World κ σ π) : Prop :=
  ∀ c ∈ queues w action, (w.shareds c).closeOutbound = none

instance (action : Action) (w : World κ σ π) : Decidable (QueuesBeforeClose action w) :=
  match h : queues w action with
  | some c => decidable_of_iff ((w.shareds c).closeOutbound = none) (by simp [QueuesBeforeClose, h])
  | none => .isTrue (by simp [QueuesBeforeClose, h])

/-- What the driver may do where no close goes to the outbox. -/
def keepsOrder : Kind → Prop
  | .divert | .queue _ => False
  | _ => True

/-- The order of the datagrams, as the ledger has it. -/
def OrderKept (w : World κ σ π) : Prop := Matched w ∧ Sound (ledger w) ∧ Ordered (ledger w)

theorem ordered_steps {L L' : Ledger} (hsteps : Steps keepsOrder L L') (hsound : Sound L) (h : Ordered L) :
    Ordered L' := by
  induction hsteps with
  | refl => exact h
  | tail hsteps hstep ih => exact ih.step (hsound.steps hsteps) id (fun _ hmay => hmay.elim) hstep

theorem asks_keepsOrder {β : Type} {op : Op κ β} (h : ClosesWithSlot op w) : Asks keepsOrder op w := by
  cases op
  case runCommand index =>
    have hnot : divertsNext w index = false := h
    exact fun hdivert => by simp [hnot] at hdivert
  all_goals first
    | exact True.intro
    | exact fun _ => True.intro

theorem orderKept_applyOp {β : Type} (op : Op κ β) (h : OrderKept w) (hgood : ClosesWithSlot op w) :
    OrderKept (w.applyOp op).2 := by
  obtain ⟨hmatched, hsound, hordered⟩ := h
  obtain ⟨hsteps, hmatched'⟩ := moves_applyOp op (asks_keepsOrder hgood) hmatched
  exact ⟨hmatched', hsound.steps hsteps, ordered_steps hsteps hsound hordered⟩

omit [Transport κ] [Socket σ] [Platform π κ] in
theorem orderKept_act (action : Action) (h : OrderKept w) (hfair : QueuesBeforeClose action w) :
    OrderKept (w.act action) := by
  obtain ⟨hmatched, hsound, hordered⟩ := h
  cases hqueues : queues w action with
  | none =>
    have hmoves : Moves keepsOrder w (w.act action) := moves_act action hqueues
    obtain ⟨hsteps, hmatched'⟩ := hmoves hmatched
    exact ⟨hmatched', hsound.steps hsteps, ordered_steps hsteps hsound hordered⟩
  | some c =>
    obtain ⟨hmatched', hledger⟩ := queues_act hqueues
    refine ⟨hmatched' hmatched, ?_⟩
    rcases hledger with hsame | hstep
    · rw [hsame]
      exact ⟨hsound, hordered⟩
    · have hstep := hstep (· = .queue c) rfl
      refine ⟨hsound.step hstep, hordered.step hsound nofun (fun c' heq => ?_) hstep⟩
      cases heq
      exact hfair c hqueues

omit [Transport κ] [Socket σ] [Platform π κ] in
theorem sound_built : Sound (ledger (built socket platform detachable : World κ σ π)) where
  tracked i slot h := by simp [ledger, built] at h
  once i j slot slot' h := by simp [ledger, built] at h
  nodup := List.nodup_nil
  asked c hc := by simp [ledger, built] at hc
  owned c hc := by simp [ledger, built, queueOf, Queue.held] at hc
  silent c x hx := by simp [ledger, built] at hx

omit [Transport κ] [Socket σ] [Platform π κ] in
theorem orderKept_built : OrderKept (built socket platform detachable : World κ σ π) := by
  refine ⟨rfl, sound_built, fun i slot h => ?_, fun c => List.Sublist.refl _, fun x hx => ?_⟩
  · simp [ledger, built] at h
  · simp [ledger, built] at hx

/-- In every run in which no close is written while the slot of its connection is taken, and no owner queues
behind its close, every connection's datagrams complete in the order of their production. -/
theorem inOrder_reached
    (h : (endpoint (κ := κ) config fuel).Careful (built socket platform detachable) ClosesWithSlot QueuesBeforeClose
      choices) : InOrder ((endpoint (κ := κ) config fuel).reached (built socket platform detachable) choices).state := by
  have hkept : OrderKept ((endpoint (κ := κ) config fuel).reached (built socket platform detachable) choices).state :=
    state_invariant orderKept_built (fun op w hw hgood => orderKept_applyOp op hw hgood)
      (fun action w hw hfair => orderKept_act action hw hfair) h
  obtain ⟨-, -, hordered⟩ := hkept
  refine ⟨hordered.sent, fun i tracked htracked => ?_⟩
  exact hordered.waiting i (slotOf tracked) (slots_ledger htracked)

end Runs

/-- A connection that completes its handshake at once and has one datagram to send, and then its close. -/
def closingConn : ScriptedConn where
  writes := [(.ok (.datagram 1), [1], [])]
  closes := [[9]]
  expiries := [(0, .ok .handled, [.observe .handshakeCompleted])]

/-- The socket refuses the datagram in the first pass; the caller closes the connection before the second. -/
def overtaking : List (Choice Action) :=
  [.other (.connect 0 none false), .other (.pushDial 0)] ++ List.replicate 20 .own ++
    [.other (.connected 0), .other (.close 0 0 [])] ++ List.replicate 16 .own

def overtaken (n : ℕ) : ScriptedWorld :=
  played {} { sends := [.wouldBlock] } { conns := [closingConn] } false (overtaking.take n)

/-- The close, which went to the outbox, completes before the datagram. -/
theorem close_overtakes : ¬ InOrder (overtaken 40) := by
  intro h
  have hproduced : sentBy (some 0) (overtaken 40).history.produced = [[1], [9]] := by decide +kernel
  have hcompleted : sentBy (some 0) (overtaken 40).history.completed = [[9], [1]] := by decide +kernel
  have hsent := h.sent 0
  rw [hproduced, hcompleted] at hsent
  exact absurd hsent (by decide)

/-- The run without the close. -/
theorem inOrder_reached_refused : InOrder (overtaken 24) := by
  refine inOrder_reached ?_
  apply careful_of_carefulFrom
  decide +kernel

end Ngnet.QuicDatagramRuns
