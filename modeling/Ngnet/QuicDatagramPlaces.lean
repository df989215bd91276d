import Ngnet.QuicDatagramRuns
import Ngnet.QuicEndpointProtocols

/-!
# Datagrams in their places

A datagram that an endpoint has produced completes at most once, and until then it is in one place: the slot
of its connection, the queue or the close slot of the owner, or the outbox. What is lost is lost to a socket
that fails, and to `evict`, which looks at the queues of a detached connection and not at its slot.
-/

namespace Ngnet.QuicDatagramPlaces
open QmuxVarints InterleavedPrograms QuicEndpoint QuicEndpointDriver QuicDatagramLedger QuicDatagrams QuicDatagramRuns
open QuicEndpointProtocols QuicScriptedHost

variable {κ σ π : Type} {w w' : World κ σ π} {i c : ℕ}

/-- The datagrams that the outbox holds of a connection, or for strangers. -/
def waitingOutside (w : World κ σ π) (origin : Option ℕ) : List Bytes :=
  sentBy origin (w.history.outboxOrigins.zip (w.driver.outbox.map (·.2)))

/-- What was produced has completed, or is in one of the places. A connection is in one entry only, and the
outbox holds as many datagrams as it is known whose they are. -/
structure InOnePlace (w : World κ σ π) : Prop where
  tracked : ∀ (i : ℕ) (tracked : Tracked κ), w.driver.connections[i]? = some tracked →
    (sentBy (some tracked.shared) w.history.completed ++ tracked.pending.toList ++
      ((w.shareds tracked.shared).outbound ++ (w.shareds tracked.shared).closeOutbound.toList) ++
      waitingOutside w (some tracked.shared)).Perm (sentBy (some tracked.shared) w.history.produced)
  alone : ∀ (i j : ℕ) (tracked other : Tracked κ), w.driver.connections[i]? = some tracked →
    w.driver.connections[j]? = some other → tracked.shared = other.shared → i = j
  untracked : ∀ c, (∀ (i : ℕ) (tracked : Tracked κ), w.driver.connections[i]? = some tracked → tracked.shared ≠ c) →
    (sentBy (some c) w.history.completed ++ waitingOutside w (some c)).Perm (sentBy (some c) w.history.produced)
  strangers : (sentBy none w.history.completed ++ waitingOutside w none).Perm (sentBy none w.history.produced)
  outbox : w.history.outboxOrigins.length = w.driver.outbox.length

/-! ## What may be removed -/

/-- Nothing is lost with the connection, and its owner is done with it, if it has one. -/
def Spent (w : World κ σ π) (i : ℕ) : Prop :=
  ∀ slot, (ledger w).slots i = some slot → slot.pending = none ∧ ((ledger w).queues slot.shared).held = [] ∧
    (slot.driven = false → ((ledger w).queues slot.shared).terminal = true)

/-- The connections that `evict` has found done and not yet removed. -/
def nextDead : {β : Type} → List ℕ → Op κ β → β → List ℕ
  | _, dead, .isDone index, done => if done then index :: dead else dead
  | _, dead, .remove index, _ => dead.erase index
  | _, dead, _, _ => dead

def allowsDead : {β : Type} → List ℕ → Op κ β → Prop
  | _, _, .isDone _ => True
  | _, dead, .remove index => index ∈ dead
  | _, dead, _ => dead = []

/-- Only what was found done is removed, and nothing else happens in between. -/
def eviction : Protocol (Op κ) (List ℕ) where
  next := nextDead
  allows := allowsDead
  expects _ _ := True

theorem plain_eviction {β : Type} (op : Op κ β) (h : Routine op) : Plain (eviction (κ := κ)) (· = []) op := by
  rintro dead rfl
  cases op
  all_goals first
    | exact h.elim
    | exact ⟨rfl, fun _ => rfl⟩

theorem follows_findDead (indices dead : List ℕ) {E : Error → List ℕ → Prop} :
    Follows (eviction (κ := κ)) (fun found dead' => dead'.Perm (found ++ dead)) E (findDead indices : DriverM κ (List ℕ))
      dead := by
  induction indices generalizing dead with
  | nil => exact List.Perm.refl dead
  | cons index indices ih =>
    rw [findDead]
    refine follows_bind.mpr ⟨True.intro, fun done _ => follows_bind.mpr (Follows.mono (ih _) ?_ fun _ _ h => h)⟩
    intro found dead' hperm
    cases done with
    | true => exact hperm.trans (List.perm_middle)
    | false => exact hperm

theorem follows_removeDead (found dead : List ℕ) (h : dead.Perm found) {E : Error → List ℕ → Prop} :
    Follows (eviction (κ := κ)) (fun _ dead' => dead' = []) E (removeDead found : DriverM κ Unit) dead := by
  induction found generalizing dead with
  | nil => exact h.eq_nil
  | cons index found ih =>
    refine ⟨h.mem_iff.mpr List.mem_cons_self, fun _ _ => ih _ ?_⟩
    have herase := h.erase index
    rw [List.erase_cons_head] at herase
    exact herase

theorem keeps_evict : Keeps (eviction (κ := κ)) (· = []) (· = []) (evict : DriverM κ Unit) := by
  rintro dead rfl
  rw [evict]
  refine follows_bind.mpr ⟨rfl, fun keys _ => follows_bind.mpr ?_⟩
  refine Follows.mono (follows_findDead keys [] (E := fun _ dead => dead = [])) ?_ fun _ _ h => h
  intro found dead hperm
  rw [List.append_nil] at hperm
  exact follows_removeDead found dead hperm

section Runs
variable [Transport κ] [Socket σ] [Platform π κ] {config : Config} {fuel : ℕ} {socket : σ} {platform : π}
  {detachable : Bool} {choices : List (Choice Action)}

theorem discipline (config : Config) (fuel : ℕ) :
    Discipline (endpoint (κ := κ) (σ := σ) (π := π) config fuel) (eviction (κ := κ)) (· = []) (· = [])
      (fun _ dead => dead = []) where
  cleanup dead hdead := by
    subst hdead
    refine ⟨rfl, fun _ _ => ⟨rfl, fun _ _ => ⟨rfl, fun _ _ => rfl⟩⟩⟩
  yields op dead hyields hallowed := by
    cases op
    case await => exact hallowed
    all_goals cases hyields
  program dead hdead := by
    have hkeeps : Keeps (eviction (κ := κ)) (· = []) (· = []) (run config fuel fuel : DriverM κ Unit) := by
      refine keeps_run plain_eviction ?_ ?_ ?_ ?_ (fun index => ?_) keeps_evict ?_ config ?_ fuel fuel
      · exact fun dead hdead => ⟨hdead, fun _ _ => ⟨hdead, fun _ _ => hdead⟩⟩
      · exact fun dead hdead => ⟨hdead, fun _ => hdead⟩
      · exact keeps_dials (fun dead hdead => ⟨hdead, fun _ => hdead⟩) fun dead hdead => ⟨hdead, fun _ => hdead⟩
      · exact fun dead hdead => ⟨hdead, fun _ => hdead⟩
      · exact keeps_applyCommands (fun dead hdead => ⟨hdead, fun _ => hdead⟩) fun dead hdead => ⟨hdead, fun _ => hdead⟩
      · exact fun dead hdead => ⟨hdead, fun _ => hdead⟩
      · have hbegin : ∀ datagram source, Plain (eviction (κ := κ)) (· = []) (.begin datagram source) :=
          fun _ _ dead hdead => ⟨hdead, fun _ => hdead⟩
        exact keeps_dispatch plain_eviction hbegin config
    exact Follows.mono (hkeeps dead hdead) (fun _ _ h => h) fun _ _ h => ⟨h, h⟩

/-! ## Runs -/

/-- The socket fails as the endpoint sends, or a detached connection is found done whose slot holds a datagram. -/
def discards {β : Type} (op : Op κ β) (w : World κ σ π) : Bool :=
  match op with
  | .sendOutbox => w.sendOutbox.1 = .failed
  | .sendNext index => (w.sendNext index).1 = .failed
  | .isDone index => w.isDone index &&
    (w.driver.connections[index]?).any fun tracked => tracked.conn.isNone && tracked.pending.isSome
  | _ => false

def KeepsDatagrams {β : Type} (op : Op κ β) (w : World κ σ π) : Prop := discards op w = false

instance {β : Type} (op : Op κ β) (w : World κ σ π) : Decidable (KeepsDatagrams op w) :=
  inferInstanceAs (Decidable (_ = false))

/-- No owner queues a datagram once it has said that it is done. -/
def QueuesWhileOpen (action : Action) (w : World κ σ π) : Prop :=
  ∀ c ∈ queues w action, (w.shareds c).terminal = false

instance (action : Action) (w : World κ σ π) : Decidable (QueuesWhileOpen action w) :=
  match h : queues w action with
  | some c => decidable_of_iff ((w.shareds c).terminal = false) (by simp [QueuesWhileOpen, h])
  | none => .isTrue (by simp [QueuesWhileOpen, h])

/-- Every datagram is in its place, and what was found done holds none. -/
structure PlacesKept (w : World κ σ π) (dead : List ℕ) : Prop where
  matched : Matched w
  sound : Sound (ledger w)
  conserved : Conserved (ledger w)
  spent : ∀ i ∈ dead, Spent w i

/-- What the driver may do without losing anything, short of removing a connection. -/
def losesNothing : Kind → Prop
  | .divert => True
  | _ => False

theorem conserved_steps {L L' : Ledger} (hsteps : Steps losesNothing L L') (hsound : Sound L) (h : Conserved L) :
    Conserved L' := by
  induction hsteps with
  | refl => exact h
  | tail hsteps hstep ih =>
    exact ih.step (hsound.steps hsteps) id (fun _ hmay => hmay.elim) (fun _ hmay => hmay.elim) hstep

theorem placesKept_of_asks {β : Type} {op : Op κ β} (h : PlacesKept w []) (hasks : Asks losesNothing op w) :
    PlacesKept (w.applyOp op).2 [] := by
  obtain ⟨hsteps, hmatched⟩ := moves_applyOp op hasks h.matched
  exact ⟨hmatched, h.sound.steps hsteps, conserved_steps hsteps h.sound h.conserved, nofun⟩

omit [Socket σ] [Platform π κ] in
theorem spent_of_isDone (hsound : Sound (ledger w)) (hdone : w.isDone i = true)
    (hslot : (w.driver.connections[i]?).any (fun tracked => tracked.conn.isNone && tracked.pending.isSome) = false) :
    Spent w i := by
  intro slot h
  obtain ⟨tracked, htracked, rfl⟩ := Option.map_eq_some_iff.mp h
  rw [World.isDone] at hdone
  rw [htracked] at hdone hslot
  cases hconn : tracked.conn with
  | some conn =>
    simp only [hconn, Bool.and_eq_true, Option.isNone_iff_eq_none] at hdone
    have hdriven : (slotOf tracked).driven = true := by simp [slotOf, hconn]
    refine ⟨hdone.1.2, held_of_driven hsound h hdriven, fun hnot => ?_⟩
    rw [hdriven] at hnot
    cases hnot
  | none =>
    simp only [hconn, Bool.and_eq_true, ConnectionShared.hasOutbound, Bool.not_eq_true', Bool.or_eq_false_iff,
      Bool.not_eq_false', List.isEmpty_iff, Option.isSome_eq_false_iff, Option.isNone_iff_eq_none] at hdone
    obtain ⟨hterminal, houtbound, hclose⟩ := hdone
    refine ⟨?_, ?_, fun _ => hterminal⟩
    · simpa [hconn, slotOf] using hslot
    · simp [ledger, slotOf, queueOf, Queue.held, houtbound, hclose]

omit [Transport κ] [Socket σ] [Platform π κ] in
theorem placesKept_remove {dead : List ℕ} (h : PlacesKept w dead) (hdead : i ∈ dead) :
    PlacesKept (w.remove i) (dead.erase i) := by
  have hspent := h.spent i hdead
  have hremove := ledger_remove w i
  have hstep : Step (· = .remove i) (ledger w) ((ledger w).setSlot i none) := Step.remove rfl
  rw [← hremove] at hstep
  refine ⟨h.matched, h.sound.step hstep, ?_, fun j hj => ?_⟩
  · refine h.conserved.step h.sound nofun nofun (fun j heq => ?_) hstep
    cases heq
    exact hspent
  · intro slot hslot
    rw [hremove] at hslot ⊢
    rcases slots_update hslot with ⟨-, hnone⟩ | ⟨-, hslot⟩
    · cases hnone
    · exact h.spent j (List.mem_of_mem_erase hj) slot hslot

theorem placesKept_applyOp {β : Type} (op : Op κ β) {dead : List ℕ} (h : PlacesKept w dead)
    (hgood : KeepsDatagrams op w) (hallowed : allowsDead dead op) :
    PlacesKept (w.applyOp op).2 (nextDead dead op (w.applyOp op).1) := by
  cases op
  case isDone index =>
    show PlacesKept w (if w.isDone index then index :: dead else dead)
    split
    · rename_i hdone
      have hslot : (w.isDone index && (w.driver.connections[index]?).any
        fun tracked => tracked.conn.isNone && tracked.pending.isSome) = false := hgood
      rw [hdone, Bool.true_and] at hslot
      refine ⟨h.matched, h.sound, h.conserved, fun i hi => ?_⟩
      rcases List.mem_cons.mp hi with rfl | hi
      · exact spent_of_isDone h.sound hdone hslot
      · exact h.spent i hi
    · exact h
  case remove index => exact placesKept_remove h hallowed
  case sendOutbox =>
    cases hallowed
    have hsent : decide (w.sendOutbox.1 = .failed) = false := hgood
    exact placesKept_of_asks h fun hfailed => (of_decide_eq_false hsent hfailed).elim
  case sendNext index =>
    cases hallowed
    have hsent : decide ((w.sendNext index).1 = .failed) = false := hgood
    exact placesKept_of_asks h fun hfailed => (of_decide_eq_false hsent hfailed).elim
  case runCommand index =>
    cases hallowed
    exact placesKept_of_asks h fun _ => True.intro
  all_goals
    cases hallowed
    exact placesKept_of_asks h True.intro

section
omit [Transport κ] [Socket σ] [Platform π κ]

theorem spent_act (action : Action) (hsound : Sound (ledger w)) (h : Spent w i) (hfair : QueuesWhileOpen action w) :
    Spent (w.act action) i := by
  have hact : HandleStep (fun c => queues w action = some c) w (w.act action) := handleStep_act action fun _ hc => hc
  intro slot hslot
  have hslots : (ledger (w.act action)).slots = (ledger w).slots := by
    simp only [ledger, hact.driver]
  rw [hslots] at hslot
  obtain ⟨hpending, hheld, hterminal⟩ := h slot hslot
  have hhandled := hact.shareds slot.shared (hsound.tracked i slot hslot).2.1
  refine ⟨hpending, ?_, fun hdriven => hhandled.terminal (hterminal hdriven)⟩
  rcases hhandled.queue with hqueues | ⟨houtbound, hclose⟩
  · -- An owner that queues is the owner of a detached connection, and is not done with it.
    have howned : slot.shared ∈ w.owned := by
      cases action with
      | send c d =>
        obtain ⟨howned, heq⟩ := Option.ite_none_right_eq_some.mp hqueues
        cases heq
        exact howned
      | sendClose c d =>
        obtain ⟨howned, heq⟩ := Option.ite_none_right_eq_some.mp hqueues
        cases heq
        exact howned
      | _ => cases hqueues
    have hdriven := (hsound.owned slot.shared (.inl (List.mem_append_left _ howned))).2.2 i slot hslot rfl
    have hopen : (w.shareds slot.shared).terminal = false := hfair slot.shared hqueues
    have hdone : (w.shareds slot.shared).terminal = true := hterminal hdriven
    rw [hopen] at hdone
    cases hdone
  · simp only [ledger, queueOf, Queue.held] at hheld ⊢
    rw [houtbound, hclose, hheld]

theorem placesKept_act (action : Action) {dead : List ℕ} (h : PlacesKept w dead) (hfair : QueuesWhileOpen action w) :
    PlacesKept (w.act action) dead := by
  have hspent : ∀ i ∈ dead, Spent (w.act action) i := fun i hi => spent_act action h.sound (h.spent i hi) hfair
  cases hqueues : queues w action with
  | none =>
    have hmoves : Moves losesNothing w (w.act action) := moves_act action hqueues
    obtain ⟨hsteps, hmatched⟩ := hmoves h.matched
    exact ⟨hmatched, h.sound.steps hsteps, conserved_steps hsteps h.sound h.conserved, hspent⟩
  | some c =>
    obtain ⟨hmatched, hledger⟩ := queues_act hqueues
    rcases hledger with hsame | hstep
    · exact ⟨hmatched h.matched, hsame ▸ h.sound, hsame ▸ h.conserved, hspent⟩
    · have hstep := hstep (· = .queue c) rfl
      refine ⟨hmatched h.matched, h.sound.step hstep, ?_, hspent⟩
      refine h.conserved.step h.sound nofun (fun c' heq => ?_) nofun hstep
      cases heq
      exact hfair c hqueues

theorem placesKept_built : PlacesKept (built socket platform detachable : World κ σ π) [] := by
  refine ⟨rfl, sound_built, ⟨fun i slot h => ?_, fun c _ => .refl _, .refl _, fun c hc => ?_⟩, nofun⟩
  · simp [ledger, built] at h
  · simp [ledger, built] at hc

theorem inOnePlace_of_kept {dead : List ℕ} (h : PlacesKept w dead) : InOnePlace w where
  tracked i tracked htracked := h.conserved.waiting i (slotOf tracked) (slots_ledger htracked)
  alone i j tracked other htracked hother heq :=
    h.sound.once i j (slotOf tracked) (slotOf other) (slots_ledger htracked) (slots_ledger hother) heq
  untracked c hc := by
    refine h.conserved.gone c fun i slot hslot => ?_
    obtain ⟨tracked, htracked, rfl⟩ := Option.map_eq_some_iff.mp hslot
    exact hc i tracked htracked
  strangers := h.conserved.strangers
  outbox := h.matched

end

/-- In every run in which the socket does not fail as the endpoint sends, no detached connection is found done
while its slot holds a datagram, and no owner queues what it said it would not, every datagram is in one place
until it completes. -/
theorem inOnePlace_reached
    (h : (endpoint (κ := κ) config fuel).Careful (built socket platform detachable) KeepsDatagrams QueuesWhileOpen
      choices) : InOnePlace ((endpoint (κ := κ) config fuel).reached (built socket platform detachable) choices).state := by
  have hadheres : Adheres eviction PlacesKept (· = []) (· = []) (fun _ dead => dead = []) _ :=
    adheres_reached (discipline config fuel)
      (fun op w dead hkept hgood hallowed => ⟨True.intro, placesKept_applyOp op hkept hgood hallowed⟩)
      (fun action w dead hkept hfair => placesKept_act action hkept hfair) placesKept_built rfl h
  obtain ⟨dead, hkept, -⟩ := hadheres
  exact inOnePlace_of_kept hkept

end Runs

/-- A connection that completes its handshake at once. -/
def quickConn : ScriptedConn where
  expiries := [(0, .ok .handled, [.observe .handshakeCompleted])]

/-- The caller takes the connection over, queues its close and is done; the socket refuses the close. -/
def releasing : List (Choice Action) :=
  [.other (.connect 0 none true), .other (.pushDial 0)] ++ List.replicate 15 .own ++
    [.other (.collect (some 0)), .other (.sendClose 0 [9]), .other (.release 0)] ++ List.replicate 4 .own

def released (n : ℕ) : ScriptedWorld :=
  played {} { sends := [.wouldBlock] } { conns := [quickConn] } true (releasing.take n)

/-- The close is in the slot when the connection is removed. -/
theorem close_discarded : ¬ InOnePlace (released 24) := by
  intro h
  have hempty : (released 24).driver.connections.isEmpty = true := by decide +kernel
  have hproduced : sentBy (some 0) (released 24).history.produced = [[9]] := by decide +kernel
  have hcompleted : sentBy (some 0) (released 24).history.completed = [] := by decide +kernel
  have hwaiting : waitingOutside (released 24) (some 0) = [] := by decide +kernel
  have hperm := h.untracked 0 fun i tracked htracked => by
    rw [Std.TreeMap.getElem?_of_isEmpty hempty] at htracked
    cases htracked
  rw [hproduced, hcompleted, hwaiting] at hperm
  exact absurd hperm.length_eq (by decide)

/-- The run up to there, without the end of the pass. -/
theorem inOnePlace_reached_refused : InOnePlace (released 21) := by
  refine inOnePlace_reached ?_
  apply careful_of_carefulFrom
  decide +kernel

end Ngnet.QuicDatagramPlaces
