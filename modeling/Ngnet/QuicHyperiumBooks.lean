import Ngnet.QuicMeters
import Ngnet.QuicHyperiumWaiters

/-!
# What moves the books of a shared native connection

What the core holds of a stream, who may read it and what was granted are changed by few steps: an observation is
routed, a chunk is read, a stream is accepted, a handle comes or goes. Everything else leaves the books as they were.
-/

namespace Ngnet.QuicHyperium
open QmuxVarints QmuxStreams QuicMeters
open QuicEndpoint (Transport ConnectionShared ConnCall Observed Note)
open QuicHttp3Join (readAll lapse produceAll)
open QmuxRecordWriter (Waker)
open HyperiumCore (Buf)

variable {κ : Type}

/-- The core goes on and grants so many bytes; what it holds and who is to have it stay. -/
structure Works (bytes : ℕ) (c c' : Core (Metered κ)) : Prop where
  goes : Goes bytes c.conn c.shared c'.conn c'.shared
  initiator : c'.initiator = c.initiator
  routed : c'.routed = c.routed
  acceptBidi : c'.acceptBidi = c.acceptBidi
  acceptUni : c'.acceptUni = c.acceptUni
  incoming : ∀ stream, (c'.state stream).incoming = (c.state stream).incoming
  handles : ∀ stream, (c'.state stream).handles = (c.state stream).handles
  ended : c.terminal.isSome = true → c'.terminal.isSome = true

namespace Works
variable {c c' c'' : Core (Metered κ)} {bytes bytes' : ℕ}

theorem refl (c : Core (Metered κ)) : Works 0 c c := ⟨.refl _ _, rfl, rfl, rfl, rfl, fun _ => rfl, fun _ => rfl, fun h => h⟩

theorem trans (h : Works bytes c c') (h' : Works bytes' c' c'') : Works (bytes + bytes') c c'' := by
  constructor
  · exact h.goes.trans h'.goes
  · exact h'.initiator.trans h.initiator
  · exact h'.routed.trans h.routed
  · exact h'.acceptBidi.trans h.acceptBidi
  · exact h'.acceptUni.trans h.acceptUni
  · exact fun stream => (h'.incoming stream).trans (h.incoming stream)
  · exact fun stream => (h'.handles stream).trans (h.handles stream)
  · exact fun hended => h'.ended (h.ended hended)

theorem of_goes {conn : Metered κ} {shared : ConnectionShared} (h : Goes bytes c.conn c.shared conn shared) :
    Works bytes c { c with conn, shared } := ⟨h, rfl, rfl, rfl, rfl, fun _ => rfl, fun _ => rfl, fun h => h⟩

end Works

theorem state_modifyState (c : Core κ) (stream : StreamId) (f : StreamState → StreamState) (other : StreamId) :
    (c.modifyState stream f).state other = if other = stream then f (c.state stream) else c.state other := by
  rw [Core.state, streams_modifyState]
  split
  · rfl
  · rfl

variable (c : Core (Metered κ)) (stream : StreamId)

theorem works_modifyState (f : StreamState → StreamState)
    (hincoming : ∀ s, (f s).incoming = s.incoming) (hhandles : ∀ s, (f s).handles = s.handles) :
    Works 0 c (c.modifyState stream f) := by
  refine ⟨.refl _ _, rfl, rfl, rfl, rfl, fun other => ?_, fun other => ?_, fun h => h⟩
  · rw [state_modifyState]
    split
    · rename_i heq
      rw [hincoming, heq]
    · rfl
  · rw [state_modifyState]
    split
    · rename_i heq
      rw [hhandles, heq]
    · rfl

theorem works_touched : Works 0 c (c.modifyState stream id) :=
  works_modifyState c stream id (fun _ => rfl) fun _ => rfl

theorem recordOpened_queues (c : Core κ) (stream : StreamId) :
    (c.recordOpened stream).acceptBidi =
        c.acceptBidi ++ (if peers c.initiator .bidirectional stream then [stream] else []) ∧
      (c.recordOpened stream).acceptUni =
        c.acceptUni ++ (if peers c.initiator .unidirectional stream then [stream] else []) := by
  simp only [Core.recordOpened, Core.openedLocally, peers]
  by_cases hlocal : stream.initiator = c.initiator
  · simp [hlocal]
  · have hkinds : stream.directionality = .bidirectional ∨ stream.directionality = .unidirectional := by
      cases stream.directionality <;> simp
    rcases hkinds with hkind | hkind <;> simp [hlocal, hkind, Core.modifyState, Core.setState]

theorem recordOpened_frame (c : Core κ) (stream : StreamId) :
    (c.recordOpened stream).conn = c.conn ∧ (c.recordOpened stream).shared = c.shared ∧
      (c.recordOpened stream).initiator = c.initiator ∧ (c.recordOpened stream).routed = c.routed := by
  simp only [Core.recordOpened]
  split
  · exact ⟨rfl, rfl, rfl, rfl⟩
  · split <;> exact ⟨rfl, rfl, rfl, rfl⟩

theorem state_recordOpened (c : Core κ) (stream other : StreamId) :
    (c.recordOpened stream).state other = c.state other := by
  have htouched : (c.modifyState stream id).state other = c.state other := by
    rw [state_modifyState]
    split
    · rename_i heq
      rw [heq]
      rfl
    · rfl
  simp only [Core.recordOpened]
  split
  · rfl
  · split <;> exact htouched

theorem state_fail (c : Core κ) (terminal : ConnectionTerminal) (stream : StreamId) :
    ((c.fail terminal).state stream).incoming = (c.state stream).incoming ∧
      ((c.fail terminal).state stream).handles = (c.state stream).handles := by
  simp only [Core.fail]
  split
  · exact ⟨rfl, rfl⟩
  · simp only [Core.state]
    cases c.streams stream <;> exact ⟨rfl, rfl⟩

theorem works_fail (terminal : ConnectionTerminal) : Works 0 c (c.fail terminal) := by
  have hstate := state_fail c terminal
  have hsame : (c.fail terminal).conn = c.conn ∧ (c.fail terminal).shared = c.shared ∧
      (c.fail terminal).initiator = c.initiator ∧ (c.fail terminal).routed = c.routed ∧
      (c.fail terminal).acceptBidi = c.acceptBidi ∧ (c.fail terminal).acceptUni = c.acceptUni := by
    rw [Core.fail]
    split <;> exact ⟨rfl, rfl, rfl, rfl, rfl, rfl⟩
  obtain ⟨hconn, hshared, hinitiator, hrouted, hbidi, huni⟩ := hsame
  refine ⟨?_, hinitiator, hrouted, hbidi, huni, fun stream => (hstate stream).1, fun stream => (hstate stream).2,
    (grows_fail c terminal).terminal⟩
  rw [hconn, hshared]
  exact .refl _ _

theorem works_noted {bytes : ℕ} {notes : List Note} {conn : Metered κ}
    (h : Reports bytes c.conn notes conn) : Works bytes c (c.noted notes conn) :=
  ⟨.of_reports h rfl, rfl, rfl, rfl, rfl, fun _ => rfl, fun _ => rfl, fun h => h⟩

theorem works_send (datagrams : List Bytes) : Works 0 c (c.send datagrams) :=
  .of_goes (.of_observed (QuicHttp3Join.observed_queueOutbound datagrams c.shared))

theorem works_release : Works 0 c c.release := by
  rw [Core.release]
  split
  · exact .refl c
  · exact ⟨.of_observed rfl, rfl, rfl, rfl, rfl, fun _ => rfl, fun _ => rfl, fun h => h⟩

section Driving
variable [Transport κ]

theorem works_call {α : Type} (op : ConnCall α) (c : Core (Metered κ)) :
    Works (offsetOf op) c (c.noted (Transport.call op c.conn).2.1 (Transport.call op c.conn).2.2) :=
  works_noted c (reports_call op c.conn)

variable (c : Core (Metered κ))

theorem works_produce : Works 0 c c.produce := by
  have hsent := fun turns room =>
    (works_noted c (reports_produceAll c.now turns room c.conn)).trans (works_send _ (produceAll c.now turns room c.conn).datagrams)
  simp only [Core.produce]
  split
  · exact (hsent _ _).trans (works_fail _ _)
  · exact hsent _ _

theorem works_expire (changed : Changed) : Works 0 c (c.expire changed).2 := by
  simp only [Core.expire]
  split
  · exact .refl c
  · rename_i answer notes conn hlapse
    have hnoted := works_noted c (reports_lapse hlapse)
    split
    · exact hnoted
    all_goals exact hnoted.trans (works_fail _ _)

theorem works_readInbound (changed : Changed) : Works 0 c (c.readInbound changed).2 := by
  have hread := reports_readAll c.now c.shared.inbound c.conn
  have hinbound : ∀ inbound, Works 0 c { c with shared := { c.shared with inbound } } :=
    fun inbound => .of_goes (.of_observed rfl)
  have hnoted := fun inbound => (hinbound inbound).trans
    (works_noted { c with shared := { c.shared with inbound } } hread)
  simp only [Core.readInbound]
  split
  · exact hnoted _
  all_goals exact (hnoted _).trans (works_fail _ _)

theorem works_armTimer : Works 0 c c.armTimer.2 := by
  have hslept : ∀ sleeping, Works 0 c { c with sleeping } :=
    fun _ => ⟨.refl _ _, rfl, rfl, rfl, rfl, fun _ => rfl, fun _ => rfl, fun h => h⟩
  rw [Core.armTimer]
  split
  · exact hslept _
  · split <;> exact hslept _

theorem works_rearmTurns (n : ℕ) (c : Core (Metered κ)) : Works 0 c (Core.rearmTurns n c).2 := by
  induction n generalizing c with
  | zero => exact .refl c
  | succ n ih =>
    have harmed := works_armTimer c
    have hexpired := harmed.trans (works_expire c.armTimer.2 {})
    simp only [Core.rearmTurns]
    split
    · exact harmed
    · split
      · exact hexpired
      · exact (hexpired.trans (works_produce _)).trans (ih _)

theorem works_rearm : Works 0 c c.rearm.2 := by
  rw [Core.rearm]
  split
  · exact .refl c
  · exact works_rearmTurns _ c

theorem works_offer (stream : StreamId) (chunk : Bytes) (fin : Bool) :
    Works 0 c (c.offer stream chunk fin).2 := by
  have hnoted := works_call (.writeStream stream chunk fin c.now) c
  simp only [Core.offer]
  split
  · split
    · split
      · exact hnoted.trans (works_fail _ _)
      · dsimp only
        split
        · exact hnoted
        · exact hnoted.trans (works_send _ _)
    · exact hnoted.trans (works_send _ _)
    · exact hnoted
    · exact hnoted
    · exact hnoted
    · exact hnoted
    · split
      · exact hnoted
      · exact hnoted.trans (works_fail _ _)
  · exact .refl c

theorem works_extendCredit (stream : StreamId) (bytes : ℕ) :
    Works bytes c (c.extendCredit stream bytes) := by
  simp only [Core.extendCredit]
  split
  · rename_i hzero
    rw [hzero]
    exact .refl c
  · have hstream := works_call (.extendMaxStreamOffset stream bytes) c
    have hgranted := hstream.trans (works_call (.extendMaxOffset bytes) _)
    have hproduced := hgranted.trans (works_produce _)
    simpa [offsetOf] using hproduced

theorem keeps_turns {P : Core (Metered κ) → Prop} (hworks : ∀ c c', Works 0 c c' → P c → P c')
    (hrouted : ∀ c changed, P c → P (c.routeObserved changed).2) (n : ℕ) {c : Core (Metered κ)} (changed : Changed)
    (h : P c) : P (Core.turns n c changed).2.2 := by
  induction n generalizing c changed with
  | zero => exact h
  | succ n ih =>
    have hread := hworks _ _ (works_readInbound c changed) h
    simp only [Core.turns]
    split
    · exact hread
    · have hexpired := hworks _ _ (works_expire (c.readInbound changed).2 (c.readInbound changed).1) hread
      split
      · exact hexpired
      · have hrouting := hrouted _ ((c.readInbound changed).2.expire (c.readInbound changed).1).1 hexpired
        have hproduced := hworks _ _ (works_produce _) hrouting
        split
        · exact hproduced
        · have harmed := hworks _ _ (works_armTimer _) hproduced
          split
          · exact harmed
          · exact ih _ harmed

theorem keeps_pump {P : Core (Metered κ) → Prop} (hworks : ∀ c c', Works 0 c c' → P c → P c')
    (hrouted : ∀ c changed, P c → P (c.routeObserved changed).2) {c : Core (Metered κ)} (h : P c) : P c.pump.2 := by
  have hturns := keeps_turns hworks hrouted timerTurns {} h
  simp only [Core.pump]
  split
  · exact hworks _ _ (works_release _) hturns
  · exact hturns

end Driving

/-! ## Sections that only work -/

theorem works_record (event : SendEvent) :
    Works 0 c (c.modifyState stream (·.record event)) := works_modifyState c stream _ (fun _ => rfl) fun _ => rfl

theorem works_writing (writing : Option Buf) :
    Works 0 c (c.modifyState stream fun s => { s with writing }) :=
  works_modifyState c stream _ (fun _ => rfl) fun _ => rfl

theorem works_sendData (data : Buf) (c : Core (Metered κ)) : Works 0 c (sendData stream data c).2 := by
  simp only [sendData]
  split
  · exact .refl c
  · split
    · exact works_touched c stream
    · split
      · exact works_touched c stream
      · exact works_modifyState c stream (fun s => { s with writing := some data }.record (.sent data.pieces.flatten))
          (fun _ => rfl) fun _ => rfl

section Sections
variable [Driven κ]

variable (stream : StreamId)

theorem works_offerRetained (data : Buf) (waker : Waker) (s : Shared (Metered κ)) :
    Works 0 s.core (offerRetained stream data waker s).2.core := by
  have hrecorded := fun event => (works_offer s.core stream data.chunk false).trans (works_record _ stream event)
  have hkept := fun event writing => (hrecorded event).trans (works_writing _ stream writing)
  simp only [offerRetained]
  split
  · split
    · exact hrecorded _
    · exact hkept _ _
  · exact hkept _ _
  · exact hkept _ _
  · exact hkept _ _
  · exact hkept _ _
  · exact hrecorded _

theorem works_retainedTurn (waker : Waker) (s : Shared (Metered κ)) :
    Works 0 s.core (retainedTurn stream waker s).2.core := by
  have htaken := works_writing s.core stream none
  simp only [retainedTurn]
  split
  · exact .refl _
  · split
    · exact works_touched _ _
    · split
      · exact htaken
      · split
        · exact htaken
        · split
          · exact htaken.trans (works_fail _ _)
          · exact htaken.trans (works_offerRetained stream _ waker (s.withCore _))

theorem works_finishTurn (waker : Waker) (s : Shared (Metered κ)) :
    Works 0 s.core (finishTurn stream waker s).2.core := by
  have htouched := works_touched s.core stream
  have hrecorded := fun event => (htouched.trans (works_offer _ stream [] true)).trans (works_record _ stream event)
  have hfinished := fun event => (hrecorded event).trans (works_modifyState _ stream (fun s => { s with sendFinished := true })
    (fun _ => rfl) fun _ => rfl)
  simp only [finishTurn]
  split
  · exact .refl _
  · split
    · exact htouched
    · split
      · exact htouched
      · split
        · exact hfinished _
        · exact hfinished _
        · exact hrecorded _
        · exact hrecorded _
        · exact hrecorded _
        · exact hrecorded _

theorem works_sendTurn (chunk : Bytes) (waker : Waker) (s : Shared (Metered κ)) :
    Works 0 s.core (sendTurn stream chunk waker s).2.core := by
  have htouched := works_touched s.core stream
  have hrecorded := fun event => (htouched.trans (works_offer _ stream chunk false)).trans (works_record _ stream event)
  simp only [sendTurn]
  split
  · exact .refl _
  · split
    · exact htouched
    · split
      · exact htouched
      · split
        · exact htouched
        · split <;> exact hrecorded _

theorem works_openTurn (bidi : Bool) (waker : Waker) (s : Shared (Metered κ)) :
    Works 0 s.core (openTurn bidi waker s).2.core := by
  have hcalled : Works 0 s.core (s.core.noted
      (Transport.call (if bidi then .openBidiStream else .openUniStream) s.core.conn).2.1
      (Transport.call (if bidi then .openBidiStream else .openUniStream) s.core.conn).2.2) := by
    cases bidi
    · exact works_call .openUniStream s.core
    · exact works_call .openBidiStream s.core
  simp only [openTurn]
  generalize Transport.call (if bidi then .openBidiStream else .openUniStream) s.core.conn = answer at hcalled ⊢
  obtain ⟨opened, notes, conn⟩ := answer
  split
  · exact .refl _
  · cases opened with
    | ok stream => exact (hcalled.trans (works_touched _ stream)).trans (works_produce _)
    | error error =>
      dsimp only
      split
      · exact hcalled
      · exact hcalled.trans (works_fail _ _)

theorem works_abandon (code : ℕ) (c : Core (Metered κ)) :
    Works 0 c (abandon stream code c) := by
  have hgone := works_modifyState c stream (fun s => { s with
    sendReset := true
    writing := none
    sendTerminal := some (.abandoned code) }.record (.reset code)) (fun _ => rfl) fun _ => rfl
  exact (hgone.trans (works_call (.resetStream stream code) _)).trans (works_produce _)

theorem works_resetStream (code : ℕ) (c : Core (Metered κ)) :
    Works 0 c (resetStream stream code c).2 := by
  simp only [resetStream]
  split
  · exact .refl c
  · split
    · exact works_touched c stream
    · exact (works_abandon stream code c).trans (works_rearm _)

theorem works_stopSending (code : ℕ) (c : Core (Metered κ)) :
    Works 0 c (stopSending stream code c).2 := by
  simp only [stopSending]
  split
  · exact .refl c
  · exact ((works_call (.stopSending stream code) c).trans (works_produce _)).trans (works_rearm _)

theorem works_closeConnection (code : ℕ) (reason : Bytes) (c : Core (Metered κ)) :
    Works 0 c (closeConnection code reason c).2 := by
  have hcalled := works_call (.writeConnectionClose code reason c.now) c
  have hqueued : ∀ (c : Core (Metered κ)) datagram,
      Works 0 c { c with shared := c.shared.queueCloseOutbound datagram } := by
    refine fun c datagram => .of_goes (.of_observed ?_)
    rw [ConnectionShared.queueCloseOutbound]
    split <;> rfl
  simp only [closeConnection]
  split
  · exact .refl c
  · refine Works.trans ?_ ((works_fail _ (.application code)).trans (works_release _))
    split
    · split
      · exact hcalled.trans (hqueued _ _)
      · exact hcalled
    · exact hcalled

end Sections

end Ngnet.QuicHyperium
