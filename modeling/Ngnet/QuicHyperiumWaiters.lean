import Ngnet.QuicHyperiumHandles

/-!
# Waiters and the end of a native connection

A task that waits is in the registry, and once the connection has ended nobody registers any more. Who is still there is
to be woken by a delivery. The pump marks everyone when it finds the connection ended; what its caller does and the
second arming of the timer come behind that, and so do the sections that do not pump.
-/

namespace Ngnet.QuicHyperium
open QmuxVarints QmuxStreams
open QuicEndpoint (Transport ConnectionShared ConnCall Observed Note outboundDataQueue datagramQueue)
open QmuxConnection (Poll)
open QmuxRecordWriter (Waker)
open HyperiumCore (Buf)

variable {κ : Type}

/-! ## What sections do to the streams -/

/-- Every stream that has a state keeps one, and a connection that has ended stays so. -/
structure Grows (c c' : Core κ) : Prop where
  streams : ∀ stream, (c.streams stream).isSome = true → (c'.streams stream).isSome = true
  terminal : c.terminal.isSome = true → c'.terminal.isSome = true

namespace Grows
variable {c c' c'' : Core κ}

theorem refl (c : Core κ) : Grows c c := ⟨fun _ h => h, fun h => h⟩

theorem trans (h : Grows c c') (h' : Grows c' c'') : Grows c c'' :=
  ⟨fun stream hsome => h'.streams stream (h.streams stream hsome), fun hended => h'.terminal (h.terminal hended)⟩

theorem of_eq (hstreams : c'.streams = c.streams) (hterminal : c'.terminal = c.terminal) : Grows c c' := by
  constructor
  · rw [hstreams]
    exact fun _ h => h
  · rw [hterminal]
    exact fun h => h

end Grows

variable (c : Core κ) (stream : StreamId)

theorem streams_modifyState (f : StreamState → StreamState) (other : StreamId) :
    (c.modifyState stream f).streams other =
      if other = stream then some (f (c.state stream)) else c.streams other := by
  simp [Core.modifyState, Core.setState, Function.update_apply]

theorem grows_modifyState (f : StreamState → StreamState) :
    Grows c (c.modifyState stream f) := by
  constructor
  · intro other hsome
    rw [streams_modifyState]
    split
    · rfl
    · exact hsome
  · exact fun h => h

theorem grows_fail (terminal : ConnectionTerminal) : Grows c (c.fail terminal) := by
  rw [Core.fail]
  split
  · exact .refl c
  · rename_i hlive
    constructor
    · intro stream hsome
      simpa using hsome
    · intro hended
      rw [hlive] at hended
      cases hended

theorem grows_noted (notes : List Note) (conn : κ) : Grows c (c.noted notes conn) := .of_eq rfl rfl

theorem grows_send (datagrams : List Bytes) : Grows c (c.send datagrams) := .of_eq rfl rfl

theorem streams_release : c.release.streams = c.streams := by
  rw [Core.release]
  split <;> rfl

theorem terminal_release : c.release.terminal = c.terminal := by
  rw [Core.release]
  split <;> rfl

theorem grows_release : Grows c c.release := .of_eq (streams_release c) (terminal_release c)

section Driving
variable [Transport κ]

variable (c : Core κ)

theorem grows_produce : Grows c c.produce := by
  simp only [Core.produce]
  split
  · exact ((grows_noted c _ _).trans (grows_send _ _)).trans (grows_fail _ _)
  · exact (grows_noted c _ _).trans (grows_send _ _)

theorem grows_expire (changed : Changed) : Grows c (c.expire changed).2 := by
  simp only [Core.expire]
  split
  · exact .refl c
  · split
    · exact grows_noted c _ _
    all_goals exact (grows_noted c _ _).trans (grows_fail _ _)

theorem grows_readInbound (changed : Changed) : Grows c (c.readInbound changed).2 := by
  have hread : ∀ shared notes conn, Grows c (({ c with shared } : Core κ).noted notes conn) :=
    fun _ _ _ => .of_eq rfl rfl
  simp only [Core.readInbound]
  split
  · exact hread _ _ _
  all_goals exact (hread _ _ _).trans (grows_fail _ _)

theorem grows_armTimer : Grows c c.armTimer.2 := by
  rw [Core.armTimer]
  split
  · exact .of_eq rfl rfl
  · split <;> exact .of_eq rfl rfl

theorem grows_rearmTurns (n : ℕ) (c : Core κ) : Grows c (Core.rearmTurns n c).2 := by
  induction n generalizing c with
  | zero => exact .refl c
  | succ n ih =>
    have harmed := grows_armTimer c
    have hexpired := harmed.trans (grows_expire c.armTimer.2 {})
    simp only [Core.rearmTurns]
    split
    · exact harmed
    · split
      · exact hexpired
      · exact (hexpired.trans (grows_produce _)).trans (ih _)

theorem grows_rearm : Grows c c.rearm.2 := by
  rw [Core.rearm]
  split
  · exact .refl c
  · exact grows_rearmTurns _ c

theorem grows_offer (stream : StreamId) (chunk : Bytes) (fin : Bool) :
    Grows c (c.offer stream chunk fin).2 := by
  simp only [Core.offer]
  split
  · have hnoted := grows_noted c (Transport.call (.writeStream stream chunk fin c.now) c.conn).2.1
      (Transport.call (.writeStream stream chunk fin c.now) c.conn).2.2
    split
    · split
      · exact hnoted.trans (grows_fail _ _)
      · dsimp only
        split
        · exact hnoted
        · exact hnoted.trans (grows_send _ _)
    · exact hnoted.trans (grows_send _ _)
    · exact hnoted
    · exact hnoted
    · exact hnoted
    · exact hnoted
    · split
      · exact hnoted
      · exact hnoted.trans (grows_fail _ _)
  · exact .refl c

theorem grows_extendCredit (stream : StreamId) (bytes : ℕ) : Grows c (c.extendCredit stream bytes) := by
  simp only [Core.extendCredit]
  split
  · exact .refl c
  · exact (((grows_noted c _ _).trans (grows_noted _ _ _)).trans (grows_produce _))

end Driving

/-! ## What a pass marks -/

/-- A part of a pass marks every stream whose state it discards, and takes no mark back. -/
structure Marks (c : Core κ) (changed : Changed) (result : Changed × Core κ) : Prop where
  kept : ∀ stream, (c.streams stream).isSome = true →
    (result.2.streams stream).isSome = true ∨ result.1.streams stream = true
  marked : ∀ stream, changed.streams stream = true → result.1.streams stream = true

namespace Marks
variable {c c' : Core κ} {changed changed' : Changed} {result : Changed × Core κ}

theorem of_grows (h : Grows c c') (hmarked : ∀ stream, changed.streams stream = true → changed'.streams stream = true) :
    Marks c changed (changed', c') :=
  ⟨fun stream hsome => .inl (h.streams stream hsome), hmarked⟩

theorem trans (h : Marks c changed (changed', c')) (h' : Marks c' changed' result) : Marks c changed result := by
  constructor
  · intro stream hsome
    rcases h.kept stream hsome with hkept | hmarked
    · exact h'.kept stream hkept
    · exact .inr (h'.marked stream hmarked)
  · exact fun stream hmarked => h'.marked stream (h.marked stream hmarked)

end Marks

variable (changed : Changed)

theorem marked_stream (stream other : StreamId) (h : changed.streams other = true) :
    (changed.stream stream).streams other = true := by
  simp only [Changed.stream, Function.update_apply]
  split
  · rfl
  · exact h

theorem grows_recordOpened : Grows c (c.recordOpened stream) := by
  simp only [Core.recordOpened]
  split
  · exact .refl c
  · split <;> exact (grows_modifyState c stream id).trans (.of_eq rfl rfl)

theorem marks_routeOne (observed : Observed) :
    Marks c changed (c.routeOne changed observed) := by
  have hrouted : Grows c { c with routed := c.routed ++ [observed] } := .of_eq rfl rfl
  cases observed with
  | data stream bytes fin => exact .of_grows (hrouted.trans (grows_modifyState _ _ _)) (marked_stream changed stream)
  | opened stream => exact .of_grows (hrouted.trans (grows_recordOpened _ _)) fun _ h => h
  | reset stream code => exact .of_grows (hrouted.trans (grows_modifyState _ _ _)) (marked_stream changed stream)
  | stopSending stream code => exact .of_grows (hrouted.trans (grows_modifyState _ _ _)) (marked_stream changed stream)
  | closed stream receiving sending =>
    constructor
    · intro other hsome
      simp only [Core.routeOne]
      by_cases heq : other = stream
      · exact .inr (by simp [Changed.stream, heq])
      · refine .inl ?_
        split
        · simpa [Function.update_apply, heq] using hsome
        · exact hsome
    · exact marked_stream changed stream
  | streamsExtended max => exact .of_grows hrouted fun _ h => h
  | locallyOpened stream => exact .of_grows hrouted fun _ h => h
  | acked stream len => exact .of_grows hrouted fun _ h => h
  | handshakeCompleted => exact .of_grows hrouted fun _ h => h

theorem marks_routeEach (observed : List Observed) (c : Core κ) (changed : Changed) :
    Marks c changed (c.routeEach changed observed) := by
  induction observed generalizing c changed with
  | nil => exact ⟨fun _ h => .inl h, fun _ h => h⟩
  | cons first observed ih => exact (marks_routeOne c changed first).trans (ih _ _)

theorem marks_routeObserved : Marks c changed (c.routeObserved changed) := by
  have hrouted : Marks c changed (changed, { c with shared := { c.shared with observed := [] } }) :=
    .of_grows (.of_eq rfl rfl) fun _ h => h
  exact hrouted.trans (marks_routeEach _ _ _)

section Driving
variable [Transport κ]

theorem marks_readInbound (c : Core κ) (changed : Changed) : Marks c changed (c.readInbound changed) := by
  have hgrows := grows_readInbound c changed
  simp only [Core.readInbound] at hgrows ⊢
  split at hgrows <;> exact .of_grows hgrows fun _ h => h

theorem marks_expire (c : Core κ) (changed : Changed) : Marks c changed (c.expire changed) := by
  have hgrows := grows_expire c changed
  simp only [Core.expire] at hgrows ⊢
  split at hgrows
  · exact .of_grows hgrows fun _ h => h
  · split at hgrows <;> exact .of_grows hgrows fun _ h => h

theorem grows_routed_produce (c c' : Core κ) (changed changed' : Changed) (h : Marks c changed (changed', c')) :
    Marks c changed (changed', c'.produce) := h.trans (.of_grows (grows_produce c') fun _ h => h)

theorem marks_turns (n : ℕ) (c : Core κ) (changed : Changed) : Marks c changed (Core.turns n c changed).2 := by
  induction n generalizing c changed with
  | zero => exact ⟨fun _ h => .inl h, fun _ h => h⟩
  | succ n ih =>
    have hread := marks_readInbound c changed
    simp only [Core.turns]
    split
    · exact hread
    · have hexpired := hread.trans (marks_expire _ _)
      split
      · exact hexpired
      · have hrouted := hexpired.trans (marks_routeObserved _ _)
        have hproduced := grows_routed_produce _ _ _ _ hrouted
        split
        · exact hproduced
        · have harmed := hproduced.trans (.of_grows (grows_armTimer _) fun _ h => h)
          split
          · exact harmed
          · exact harmed.trans (ih _ _)

/-- Behind the pump, every stream that has lost its state is marked; and where the connection has ended, everyone is. -/
structure Pumped (c : Core κ) (result : Changed × Core κ) : Prop where
  kept : ∀ stream, (c.streams stream).isSome = true →
    (result.2.streams stream).isSome = true ∨ result.1.streams stream = true
  ended : result.2.terminal.isSome = true → result.1.connection = true ∧
    ∀ stream, (result.2.streams stream).isSome = true → result.1.streams stream = true

theorem marked_everything (changed : Changed) (streams : StreamId → Option StreamState) (stream : StreamId)
    (h : changed.streams stream = true) : (changed.wakeEverything streams).streams stream = true := by
  simp [Changed.wakeEverything, h]

theorem pumped (c : Core κ) : Pumped c c.pump := by
  have hturns := marks_turns timerTurns c {}
  simp only [Core.pump]
  generalize Core.turns timerTurns c {} = result at hturns ⊢
  obtain ⟨due, changed, c'⟩ := result
  dsimp only
  have hmarks : Marks c {} (if due then changed.wakeEverything c'.streams else changed, c') := by
    refine hturns.trans (.of_grows (.refl c') fun stream hmarked => ?_)
    split
    · exact marked_everything changed _ stream hmarked
    · exact hmarked
  split
  · have hreleased := hmarks.trans (.of_grows (grows_release c') (marked_everything _ c'.streams))
    constructor
    · exact hreleased.kept
    · intro _
      constructor
      · rfl
      · intro stream hsome
        have hstate : (c'.streams stream).isSome = true := by
          rw [← streams_release]
          exact hsome
        simp [Changed.wakeEverything, hstate]
  · rename_i hlive
    exact ⟨hmarks.kept, fun hended => absurd hended hlive⟩

end Driving

/-! ## What callers do behind the pump -/

/-- What a caller does: it registers on a live connection only, and for a stream only if that has a state. -/
structure Acts (s s' : Shared κ) : Prop where
  grows : Grows s.core s'.core
  ended : s.core.terminal.isSome = true → s'.wakers = s.wakers
  parked : ∀ stream, s'.wakers.streams stream ≠ [] →
    s.wakers.streams stream ≠ [] ∨ (s'.core.streams stream).isSome = true

section Acts
variable {s s' : Shared κ}

theorem acts_of_grows {core : Core κ} (h : Grows s.core core) : Acts s (s.withCore core) :=
  ⟨h, fun _ => rfl, fun _ hparked => .inl hparked⟩

variable (stream : StreamId) (waker : Waker)

theorem acts_parkOnStream {core : Core κ} {stream : StreamId} (h : Grows s.core core)
    (hlive : s.core.terminal = none) (hstate : (core.streams stream).isSome = true) :
    Acts s ((s.withCore core).parkOnStream stream waker) := by
  constructor
  · exact h
  · intro hended
    rw [hlive] at hended
    cases hended
  · intro other hparked
    by_cases heq : other = stream
    · exact .inr (heq ▸ hstate)
    · refine .inl ?_
      simpa [Shared.parkOnStream, Shared.withCore, WakerSet.registerStream, Function.update_apply, heq] using hparked

theorem acts_parkOnConnection {core : Core κ} (h : Grows s.core core)
    (hlive : s.core.terminal = none) : Acts s ((s.withCore core).parkOnConnection waker) := by
  constructor
  · exact h
  · intro hended
    rw [hlive] at hended
    cases hended
  · exact fun _ hparked => .inl hparked

theorem isSome_modifyState (c : Core κ) (stream : StreamId) (f : StreamState → StreamState) :
    ((c.modifyState stream f).streams stream).isSome = true := by
  rw [streams_modifyState, if_pos rfl]
  rfl

theorem acts_refl (s : Shared κ) : Acts s s := ⟨.refl s.core, fun _ => rfl, fun _ hparked => .inl hparked⟩

theorem acts_touched (s : Shared κ) (f : StreamState → StreamState) :
    Acts s (s.withCore (s.core.modifyState stream f)) := acts_of_grows (grows_modifyState _ _ _)

theorem Acts.trans {s'' : Shared κ} (h : Acts s s') (h' : Acts s' s'') : Acts s s'' := by
  constructor
  · exact h.grows.trans h'.grows
  · intro hended
    rw [h'.ended (h.grows.terminal hended), h.ended hended]
  · intro stream hparked
    rcases h'.parked stream hparked with hbefore | hstate
    · rcases h.parked stream hbefore with hfirst | hstate
      · exact .inl hfirst
      · exact .inr (h'.grows.streams stream hstate)
    · exact .inr hstate

theorem grows_popAccept (bidi : Bool) (c : Core κ) : Grows c (popAccept bidi c).2 := by
  cases bidi <;> exact .of_eq rfl rfl

variable [Driven κ]

theorem acts_offerRetained (data : Buf) (waker : Waker) (s : Shared κ)
    (hlive : s.core.terminal = none) : Acts s (offerRetained stream data waker s).2 := by
  have hoffered := grows_offer s.core stream data.chunk false
  have hrecorded := fun f => hoffered.trans (grows_modifyState (s.core.offer stream data.chunk false).2 stream f)
  have hkept := fun f g => (hrecorded f).trans (grows_modifyState
    ((s.core.offer stream data.chunk false).2.modifyState stream f) stream g)
  simp only [offerRetained]
  split
  · split
    · exact acts_of_grows (hrecorded _)
    · exact acts_of_grows (hkept _ _)
  · exact acts_of_grows (hkept _ _)
  · exact acts_parkOnStream waker (hkept _ _) hlive (isSome_modifyState _ _ _)
  · exact acts_parkOnStream waker (hkept _ _) hlive (isSome_modifyState _ _ _)
  · exact acts_of_grows (hkept _ _)
  · exact acts_of_grows (hrecorded _)

theorem acts_retainedTurn (s : Shared κ) :
    Acts s (retainedTurn stream waker s).2 := by
  have htaken := acts_touched stream s fun s => { s with writing := none }
  simp only [retainedTurn]
  split
  · exact acts_refl s
  · rename_i hlive
    split
    · exact acts_touched stream s id
    · split
      · exact htaken
      · split
        · exact htaken
        · split
          · exact htaken.trans (acts_of_grows (grows_fail _ _))
          · exact htaken.trans (acts_offerRetained stream _ waker _ hlive)

theorem acts_finishTurn (s : Shared κ) : Acts s (finishTurn stream waker s).2 := by
  have hoffered := (grows_modifyState s.core stream id).trans (grows_offer (s.core.modifyState stream id) stream [] true)
  have hrecorded := fun f => hoffered.trans
    (grows_modifyState ((s.core.modifyState stream id).offer stream [] true).2 stream f)
  have hfinished := fun f g => (hrecorded f).trans (grows_modifyState
    (((s.core.modifyState stream id).offer stream [] true).2.modifyState stream f) stream g)
  simp only [finishTurn]
  split
  · exact acts_refl s
  · rename_i hlive
    split
    · exact acts_touched stream s id
    · split
      · exact acts_touched stream s id
      · split
        · exact acts_of_grows (hfinished _ _)
        · exact acts_of_grows (hfinished _ _)
        · exact acts_of_grows (hrecorded _)
        · exact acts_parkOnStream waker (hrecorded _) hlive (isSome_modifyState _ _ _)
        · exact acts_parkOnStream waker (hrecorded _) hlive (isSome_modifyState _ _ _)
        · exact acts_of_grows (hrecorded _)

theorem acts_sendTurn (chunk : Bytes) (waker : Waker) (s : Shared κ) :
    Acts s (sendTurn stream chunk waker s).2 := by
  have hoffered := (grows_modifyState s.core stream id).trans
    (grows_offer (s.core.modifyState stream id) stream chunk false)
  have hrecorded := fun f => hoffered.trans
    (grows_modifyState ((s.core.modifyState stream id).offer stream chunk false).2 stream f)
  simp only [sendTurn]
  split
  · exact acts_refl s
  · rename_i hlive
    split
    · exact acts_touched stream s id
    · split
      · exact acts_touched stream s id
      · split
        · exact acts_touched stream s id
        · split
          · exact acts_of_grows (hrecorded _)
          · exact acts_of_grows (hrecorded _)
          · exact acts_parkOnStream waker (hrecorded _) hlive (isSome_modifyState _ _ _)
          · exact acts_parkOnStream waker (hrecorded _) hlive (isSome_modifyState _ _ _)
          · exact acts_of_grows (hrecorded _)
          · exact acts_of_grows (hrecorded _)

theorem acts_dataTurn (s : Shared κ) : Acts s (dataTurn stream waker s).2 := by
  simp only [dataTurn]
  split
  · exact acts_of_grows ((grows_modifyState _ _ _).trans (grows_extendCredit _ _ _))
  · split
    · exact acts_touched stream s id
    · split
      · exact acts_touched stream s id
      · split
        · exact acts_touched stream s id
        · rename_i hlive
          exact acts_parkOnStream waker (grows_modifyState _ _ _) hlive (isSome_modifyState _ _ _)

theorem acts_acceptTurn (bidi : Bool) (waker : Waker) (s : Shared κ) : Acts s (acceptTurn bidi waker s).2 := by
  have hpop := grows_popAccept bidi s.core
  simp only [acceptTurn]
  split
  · rename_i stream c heq
    rw [heq] at hpop
    have hextended : Grows c (extendMaxStreams bidi c) := .of_eq rfl rfl
    exact acts_of_grows ((hpop.trans hextended).trans (grows_produce _))
  · split
    · exact acts_refl s
    · rename_i hlive
      exact acts_parkOnConnection waker (.refl s.core) hlive

theorem acts_openTurn (bidi : Bool) (waker : Waker) (s : Shared κ) : Acts s (openTurn bidi waker s).2 := by
  simp only [openTurn]
  generalize Transport.call (if bidi then .openBidiStream else .openUniStream) s.core.conn = answer
  obtain ⟨opened, notes, conn⟩ := answer
  have hcalled := grows_noted s.core notes conn
  split
  · exact acts_refl s
  · rename_i hlive
    cases opened with
    | ok stream => exact acts_of_grows ((hcalled.trans (grows_modifyState _ stream id)).trans (grows_produce _))
    | error error =>
      dsimp only
      split
      · exact acts_parkOnConnection waker hcalled hlive
      · exact acts_of_grows (hcalled.trans (grows_fail _ _))

end Acts

/-! ## Who is to be woken -/

namespace Delivery

def wakesConnection : Delivery → Bool
  | .changed pass => pass.connection
  | .all => true
  | .forget _ => false

def wakesStream (stream : StreamId) : Delivery → Bool
  | .changed pass => pass.streams stream
  | .all => true
  | .forget other => other = stream

end Delivery

theorem connection_apply (delivery : Delivery) (set : WakerSet) :
    (delivery.apply set).connection = if delivery.wakesConnection then [] else set.connection := by
  cases delivery <;> rfl

theorem streams_apply (delivery : Delivery) (set : WakerSet) (stream : StreamId) :
    (delivery.apply set).streams stream = if delivery.wakesStream stream then [] else set.streams stream := by
  cases delivery with
  | changed pass => rfl
  | all => rfl
  | forget other =>
    simp [Delivery.apply, WakerSet.forgetStream, Function.update_apply, Delivery.wakesStream, eq_comm]

theorem mem_eraseIdx_of_wakes {deliveries : List Delivery} {index : ℕ} {taken delivery : Delivery}
    {wakes : Delivery → Bool} (htaken : deliveries[index]? = some taken) (hnot : ¬ wakes taken = true)
    (hmem : delivery ∈ deliveries) (hwakes : wakes delivery = true) : delivery ∈ deliveries.eraseIdx index := by
  obtain ⟨place, hplace⟩ := List.mem_iff_getElem?.mp hmem
  refine List.mem_eraseIdx_iff_getElem?.mpr ⟨place, ?_, hplace⟩
  rintro rfl
  rw [htaken] at hplace
  cases hplace
  exact hnot hwakes

structure NobodyWaits (set : WakerSet) : Prop where
  connection : set.connection = []
  streams : ∀ stream, set.streams stream = []

namespace World

/-- A delivery will take whoever waits for this stream off the registry. -/
def Due (w : World κ) (stream : StreamId) : Prop := ∃ delivery ∈ w.deliveries, delivery.wakesStream stream = true

end World

/-- Whoever waits for a stream finds its state, or is to be woken; and behind the end of the connection, everyone who
waits is to be woken. -/
structure Covered (w : World κ) : Prop where
  state : ∀ stream, w.shared.wakers.streams stream ≠ [] → (w.core.streams stream).isSome = true ∨ w.Due stream
  connection : w.core.terminal.isSome = true → w.shared.wakers.connection ≠ [] →
    ∃ delivery ∈ w.deliveries, delivery.wakesConnection = true
  streams : w.core.terminal.isSome = true → ∀ stream, w.shared.wakers.streams stream ≠ [] → w.Due stream

/-- Behind what the caller did the connection lives, its timer is due at once, or nobody waits. -/
def Spared [Transport κ] (s : Shared κ) : Prop :=
  s.core.rearm.2.terminal = none ∨ s.core.rearm.1 = true ∨ NobodyWaits s.wakers

section Worlds
variable {w : World κ}

theorem covered_pump [Driven κ] {α : Type} (h : Covered w) (act : Shared κ → α × Shared κ)
    (hacts : ∀ s, Acts s (act s).2)
    (hspared : w.core.pump.2.terminal = none → Spared (act (w.shared.withCore w.core.pump.2)).2) :
    Covered (w.pump act).2 := by
  have hpumped := pumped w.core
  simp only [World.pump, Shared.pump]
  rw [show w.shared.core = w.core from rfl]
  generalize w.core.pump = passed at hpumped hspared ⊢
  obtain ⟨changed, c₁⟩ := passed
  have hact := hacts (w.shared.withCore c₁)
  dsimp only at hpumped hspared ⊢
  generalize act (w.shared.withCore c₁) = acted at hact hspared ⊢
  obtain ⟨value, s⟩ := acted
  have hrearm := grows_rearm s.core
  dsimp only at hact hspared hrearm ⊢
  rw [Spared] at hspared
  generalize s.core.rearm = rearmed at hrearm hspared ⊢
  obtain ⟨due, c₂⟩ := rearmed
  dsimp only at hrearm hspared ⊢
  -- What is delivered has every mark that the pump made, and all marks where the timer is due.
  obtain ⟨delivered, hdelivered⟩ : ∃ delivered, delivered = if due then changed.wakeEverything c₂.streams else changed :=
    ⟨_, rfl⟩
  have hmarks : ∀ stream, changed.streams stream = true → delivered.streams stream = true := by
    intro stream hmarked
    rw [hdelivered]
    split
    · exact marked_everything changed _ stream hmarked
    · exact hmarked
  rw [← hdelivered]
  have hmore : ∀ stream, w.Due stream → (World.Due { w with
      shared := s.withCore c₂, deliveries := w.deliveries ++ [.changed delivered] } stream) := by
    rintro stream ⟨delivery, hmem, hwakes⟩
    exact ⟨delivery, List.mem_append_left _ hmem, hwakes⟩
  have hnew : ∀ stream, delivered.streams stream = true → (World.Due { w with
      shared := s.withCore c₂, deliveries := w.deliveries ++ [.changed delivered] } stream) :=
    fun stream hmarked => ⟨.changed delivered, by simp, hmarked⟩
  have hbefore : ∀ stream, w.shared.wakers.streams stream ≠ [] → (c₁.streams stream).isSome = true ∨
      World.Due { w with shared := s.withCore c₂, deliveries := w.deliveries ++ [.changed delivered] } stream := by
    intro stream hwaits
    rcases h.state stream hwaits with hstate | hdue
    · rcases hpumped.kept stream hstate with hkept | hmarked
      · exact .inl hkept
      · exact .inr (hnew stream (hmarks stream hmarked))
    · exact .inr (hmore stream hdue)
  have hstate : ∀ stream, s.wakers.streams stream ≠ [] → (c₂.streams stream).isSome = true ∨
      World.Due { w with shared := s.withCore c₂, deliveries := w.deliveries ++ [.changed delivered] } stream := by
    intro stream hwaits
    rcases hact.parked stream hwaits with hearlier | hparked
    · rcases hbefore stream hearlier with hkept | hdue
      · exact .inl (hrearm.streams stream (hact.grows.streams stream hkept))
      · exact .inr hdue
    · exact .inl (hrearm.streams stream hparked)
  cases hended : c₁.terminal with
  | some terminal =>
    have hsome : c₁.terminal.isSome = true := by rw [hended]; rfl
    have hwakers : s.wakers = w.shared.wakers := hact.ended hsome
    obtain ⟨hconnection, hstreams⟩ := hpumped.ended hsome
    constructor
    · exact hstate
    · intro _ _
      refine ⟨.changed delivered, by simp, ?_⟩
      rw [hdelivered]
      split
      · rfl
      · exact hconnection
    · intro _ stream hwaits
      rw [show (s.withCore c₂).wakers = w.shared.wakers from hwakers] at hwaits
      rcases hbefore stream hwaits with hkept | hdue
      · exact hnew stream (hmarks stream (hstreams stream hkept))
      · exact hdue
  | none =>
    have hspare := hspared hended
    constructor
    · exact hstate
    · intro hlatched hwaits
      rcases hspare with hlive | hdue | hnobody
      · rw [show (World.core { w with shared := s.withCore c₂, deliveries := _ }).terminal = none from hlive] at hlatched
        cases hlatched
      · refine ⟨.changed delivered, by simp, ?_⟩
        rw [hdelivered, if_pos hdue]
        rfl
      · exact absurd hnobody.connection hwaits
    · intro hlatched stream hwaits
      rcases hspare with hlive | hdue | hnobody
      · rw [show (World.core { w with shared := s.withCore c₂, deliveries := _ }).terminal = none from hlive] at hlatched
        cases hlatched
      · rcases hstate stream hwaits with hkept | hdue'
        · refine hnew stream ?_
          rw [hdelivered, if_pos hdue]
          simp [Changed.wakeEverything, hkept]
        · exact hdue'
      · exact absurd (hnobody.streams stream) hwaits

/-- A section that does not pump keeps every state but one it forgets. -/
def Keeps (c : Core κ) (result : List Delivery × Core κ) : Prop :=
  ∀ stream, (c.streams stream).isSome = true →
    (result.2.streams stream).isSome = true ∨ ∃ delivery ∈ result.1, delivery.wakesStream stream = true

theorem keeps_of_grows {c c' : Core κ} (h : Grows c c') (deliveries : List Delivery) : Keeps c (deliveries, c') :=
  fun stream hsome => .inl (h.streams stream hsome)

theorem covered_lock (h : Covered w) (act : Core κ → List Delivery × Core κ) (hkeeps : Keeps w.core (act w.core))
    (hspared : w.core.terminal = none →
      (act w.core).2.terminal = none ∨ .all ∈ (act w.core).1 ∨ NobodyWaits w.shared.wakers) :
    Covered (w.lock act) := by
  have hmore : ∀ stream, w.Due stream → (w.lock act).Due stream := by
    rintro stream ⟨delivery, hmem, hwakes⟩
    exact ⟨delivery, List.mem_append_left _ hmem, hwakes⟩
  constructor
  · intro stream hwaits
    rcases h.state stream hwaits with hstate | hdue
    · rcases hkeeps stream hstate with hkept | ⟨delivery, hmem, hwakes⟩
      · exact .inl hkept
      · exact .inr ⟨delivery, List.mem_append_right _ hmem, hwakes⟩
    · exact .inr (hmore stream hdue)
  · intro hended hwaits
    cases hbefore : w.core.terminal with
    | some terminal =>
      obtain ⟨delivery, hmem, hwakes⟩ := h.connection (by rw [hbefore]; rfl) hwaits
      exact ⟨delivery, List.mem_append_left _ hmem, hwakes⟩
    | none =>
      rcases hspared hbefore with hlive | hall | hnobody
      · rw [show (w.lock act).core.terminal = none from hlive] at hended
        cases hended
      · exact ⟨.all, List.mem_append_right _ hall, rfl⟩
      · exact absurd hnobody.connection hwaits
  · intro hended stream hwaits
    cases hbefore : w.core.terminal with
    | some terminal => exact hmore stream (h.streams (by rw [hbefore]; rfl) stream hwaits)
    | none =>
      rcases hspared hbefore with hlive | hall | hnobody
      · rw [show (w.lock act).core.terminal = none from hlive] at hended
        cases hended
      · exact ⟨.all, List.mem_append_right _ hall, rfl⟩
      · exact absurd (hnobody.streams stream) hwaits

theorem covered_deliver (h : Covered w) {index : ℕ} {delivery : Delivery} (hnext : w.deliveries[index]? = some delivery) :
    Covered { w with
      shared := { w.shared with wakers := delivery.apply w.shared.wakers }
      deliveries := w.deliveries.eraseIdx index } := by
  have hstreams : ∀ stream, (delivery.apply w.shared.wakers).streams stream ≠ [] →
      ¬ delivery.wakesStream stream = true ∧ w.shared.wakers.streams stream ≠ [] := by
    intro stream hwaits
    rw [streams_apply] at hwaits
    split at hwaits
    · exact absurd rfl hwaits
    · rename_i hnot
      exact ⟨hnot, hwaits⟩
  have hdue : ∀ stream, ¬ delivery.wakesStream stream = true → w.Due stream →
      ∃ other ∈ w.deliveries.eraseIdx index, other.wakesStream stream = true := by
    rintro stream hnot ⟨other, hmem, hwakes⟩
    exact ⟨other, mem_eraseIdx_of_wakes hnext hnot hmem hwakes, hwakes⟩
  constructor
  · intro stream hwaits
    obtain ⟨hnot, hwaited⟩ := hstreams stream hwaits
    exact (h.state stream hwaited).imp_right (hdue stream hnot)
  · intro hended hwaits
    rw [connection_apply] at hwaits
    split at hwaits
    · exact absurd rfl hwaits
    · rename_i hnot
      obtain ⟨other, hmem, hwakes⟩ := h.connection hended hwaits
      exact ⟨other, mem_eraseIdx_of_wakes hnext hnot hmem hwakes, hwakes⟩
  · intro hended stream hwaits
    obtain ⟨hnot, hwaited⟩ := hstreams stream hwaits
    exact hdue stream hnot (h.streams hended stream hwaited)

theorem Covered.of_grows (h : Covered w) {w' : World κ} (hstreams : Grows w.core w'.core)
    (hterminal : w'.core.terminal = w.core.terminal) (hwakers : w'.shared.wakers = w.shared.wakers)
    (hdeliveries : ∀ delivery ∈ w.deliveries, delivery ∈ w'.deliveries) : Covered w' := by
  have hdue : ∀ stream, w.Due stream → w'.Due stream :=
    fun stream ⟨delivery, hmem, hwakes⟩ => ⟨delivery, hdeliveries delivery hmem, hwakes⟩
  constructor
  · intro stream hwaits
    rw [hwakers] at hwaits
    exact (h.state stream hwaits).imp (hstreams.streams stream) (hdue stream)
  · intro hended hwaits
    rw [hterminal] at hended
    rw [hwakers] at hwaits
    obtain ⟨delivery, hmem, hwakes⟩ := h.connection hended hwaits
    exact ⟨delivery, hdeliveries delivery hmem, hwakes⟩
  · intro hended stream hwaits
    rw [hterminal] at hended
    rw [hwakers] at hwaits
    exact hdue stream (h.streams hended stream hwaits)

/-! ## Steps -/

variable [Driven κ]

/-- What the sections that end a connection behind the pump, or without it, have to find. -/
def Careful (w : World κ) : Action → Prop
  | .accept bidi waker => w.core.pump.2.terminal = none →
    Spared (acceptTurn bidi waker (w.shared.withCore w.core.pump.2)).2
  | .openStream bidi waker => w.core.pump.2.terminal = none →
    Spared (openTurn bidi waker (w.shared.withCore w.core.pump.2)).2
  | .retained stream waker => w.core.pump.2.terminal = none →
    Spared (retainedTurn stream waker (w.shared.withCore w.core.pump.2)).2
  | .finish stream waker => w.core.pump.2.terminal = none →
    Spared (finishTurn stream waker (w.shared.withCore w.core.pump.2)).2
  | .send stream chunk waker => w.core.pump.2.terminal = none →
    Spared (sendTurn stream chunk waker (w.shared.withCore w.core.pump.2)).2
  | .data stream waker => w.core.pump.2.terminal = none →
    Spared (dataTurn stream waker (w.shared.withCore w.core.pump.2)).2
  | .reset stream code => w.core.terminal = none →
    ((w.core.state stream).sendReset || (w.core.state stream).sendFinished) = false →
      Spared (w.shared.withCore (abandon stream code w.core))
  | .dropSend stream => w.core.terminal = none →
    ((w.core.state stream).sendFinished || (w.core.state stream).sendReset ||
      (w.core.state stream).sendTerminal.isSome) = false →
        Spared (w.shared.withCore (abandon stream abandoned w.core))
  | .stopSending stream code => w.core.terminal = none →
    Spared (w.shared.withCore (w.core.noted (Transport.call (.stopSending stream code) w.core.conn).2.1
      (Transport.call (.stopSending stream code) w.core.conn).2.2).produce)
  | _ => True

omit [Driven κ] in
theorem covered_hands (h : Covered w) (stream : StreamId) (made : List Half) :
    Covered (made.foldl (fun w half => w.hand stream half) w) := by
  induction made generalizing w with
  | nil => exact h
  | cons half made ih =>
    refine ih ?_
    cases half <;> exact h.of_grows (.refl w.core) rfl rfl fun _ h => h

omit [Driven κ] in
theorem covered_construct (h : Covered w) (index : ℕ) : Covered (w.constructNext index) := by
  simp only [World.constructNext]
  split
  · exact h
  · refine covered_hands ?_ _ _
    exact h.of_grows (.refl w.core) rfl rfl fun _ h => h
  · rename_i stream made half left _
    have hretained : Grows w.core (w.core.retainHandle stream) := grows_modifyState _ _ _
    exact h.of_grows hretained rfl rfl fun _ h => h

omit [Driven κ] in
theorem keeps_releaseHandle (c : Core κ) (stream : StreamId) :
    Keeps c (onlyForget stream (c.releaseHandle stream).1, (c.releaseHandle stream).2) := by
  intro other hsome
  simp only [Core.releaseHandle]
  split
  · exact .inl hsome
  · rename_i state hstate
    split
    · by_cases heq : other = stream
      · exact .inr ⟨.forget stream, by simp [onlyForget], by simp [Delivery.wakesStream, heq]⟩
      · exact .inl (by simpa [Function.update_apply, heq] using hsome)
    · refine .inl ?_
      simp only [Core.setState, Function.update_apply]
      split
      · rfl
      · exact hsome

omit [Driven κ] in
theorem Keeps.behind {c c' : Core κ} {result : List Delivery × Core κ} (h : Grows c c') (h' : Keeps c' result) :
    Keeps c result := fun stream hsome => h' stream (h.streams stream hsome)

theorem grows_abandon (stream : StreamId) (code : ℕ) (c : Core κ) : Grows c (abandon stream code c) :=
  ((grows_modifyState c stream _).trans (grows_noted _ _ _)).trans (grows_produce _)

omit [Driven κ] in
theorem terminal_releaseHandle (c : Core κ) (stream : StreamId) : (c.releaseHandle stream).2.terminal = c.terminal := by
  simp only [Core.releaseHandle]
  split
  · rfl
  · split <;> rfl

theorem Spared.locked {c : Core κ} (h : Spared (w.shared.withCore c)) (more : List Delivery) :
    c.rearm.2.terminal = none ∨ .all ∈ whenDue c.rearm.1 ++ more ∨ NobodyWaits w.shared.wakers := by
  rcases h with hlive | hdue | hnobody
  · exact .inl hlive
  · refine .inr (.inl ?_)
    rw [show c.rearm.1 = true from hdue]
    simp [whenDue]
  · exact .inr (.inr hnobody)

theorem covered_reset (h : Covered w) (stream : StreamId) (code : ℕ) (hcareful : Careful w (.reset stream code)) :
    Covered (w.lock (resetStream stream code)) := by
  have habandoned := (grows_abandon stream code w.core).trans (grows_rearm _)
  refine covered_lock h _ ?_ ?_
  · simp only [resetStream]
    split
    · exact keeps_of_grows (.refl w.core) _
    · split
      · exact keeps_of_grows (grows_modifyState _ _ _) _
      · exact keeps_of_grows habandoned _
  · intro hlive
    simp only [resetStream, hlive, Option.isSome_none, Bool.false_eq_true, if_false]
    split
    · exact .inl hlive
    · rename_i hopen
      simpa using (hcareful hlive (by simpa using hopen)).locked []

theorem covered_dropSend (h : Covered w) (stream : StreamId) (hcareful : Careful w (.dropSend stream)) :
    Covered (w.lock (dropSend stream)) := by
  have habandoned := (grows_abandon stream abandoned w.core).trans (grows_rearm _)
  refine covered_lock h _ ?_ ?_
  · simp only [dropSend]
    split
    · exact keeps_releaseHandle w.core stream
    · split
      · exact (keeps_releaseHandle _ stream).behind (grows_modifyState w.core stream id)
      · intro other hsome
        rcases keeps_releaseHandle (abandon stream abandoned w.core).rearm.2 stream other
          (habandoned.streams other hsome) with hkept | ⟨delivery, hmem, hwakes⟩
        · exact .inl hkept
        · exact .inr ⟨delivery, List.mem_append_right _ hmem, hwakes⟩
  · intro hlive
    simp only [dropSend, hlive, Option.isSome_none, Bool.false_eq_true, if_false]
    split
    · exact .inl ((terminal_releaseHandle _ _).trans hlive)
    · rename_i hopen
      rw [terminal_releaseHandle]
      exact (hcareful hlive (by simpa using hopen)).locked _

theorem covered_stopSending (h : Covered w) (stream : StreamId) (code : ℕ)
    (hcareful : Careful w (.stopSending stream code)) : Covered (w.lock (stopSending stream code)) := by
  refine covered_lock h _ ?_ ?_
  · simp only [stopSending]
    split
    · exact keeps_of_grows (.refl w.core) _
    · exact keeps_of_grows (((grows_noted _ _ _).trans (grows_produce _)).trans (grows_rearm _)) _
  · intro hlive
    simp only [stopSending, hlive, Option.isSome_none, Bool.false_eq_true, if_false]
    simpa using (hcareful hlive).locked []

theorem covered_close (h : Covered w) (code : ℕ) (reason : Bytes) : Covered (w.lock (closeConnection code reason)) := by
  refine covered_lock h _ ?_ ?_
  · simp only [closeConnection]
    split
    · exact keeps_of_grows (.refl w.core) _
    · refine keeps_of_grows ?_ _
      refine Grows.trans ?_ ((grows_fail _ (.application code)).trans (grows_release _))
      split
      · split <;> exact .of_eq rfl rfl
      · exact .of_eq rfl rfl
  · intro hlive
    simp only [closeConnection, hlive, Option.isSome_none, Bool.false_eq_true, if_false]
    exact .inr (.inl (List.mem_singleton_self _))

omit [Driven κ] in
theorem grows_sendData (stream : StreamId) (data : Buf) (c : Core κ) : Grows c (sendData stream data c).2 ∧
    (sendData stream data c).2.terminal = c.terminal := by
  have htouched := grows_modifyState c stream
  simp only [sendData]
  split
  · exact ⟨.refl c, rfl⟩
  · split
    · exact ⟨htouched id, rfl⟩
    · split
      · exact ⟨htouched id, rfl⟩
      · constructor
        · dsimp only
          exact htouched _
        · rfl

theorem covered_step (h : Covered w) (action : Action) (hcareful : Careful w action) : Covered (w.step action) := by
  cases action with
  | accept bidi waker =>
    have hpump := covered_pump h (acceptTurn bidi waker) (acts_acceptTurn bidi waker) hcareful
    simp only [World.step, World.construct]
    split <;> exact hpump.of_grows (.refl _) rfl rfl fun _ h => h
  | openStream bidi waker =>
    have hpump := covered_pump h (openTurn bidi waker) (acts_openTurn bidi waker) hcareful
    simp only [World.step, World.construct]
    split
    · exact hpump.of_grows (.refl _) rfl rfl fun _ h => h
    · exact hpump
  | construct index => exact covered_construct h index
  | close code reason => exact covered_close h code reason
  | dropConnection => exact h.of_grows (grows_release w.core) (terminal_release w.core) rfl fun _ h => h
  | retained stream waker =>
    simp only [World.step]
    split
    · exact covered_pump h (retainedTurn stream waker) (acts_retainedTurn stream waker) hcareful
    · exact h
  | finish stream waker =>
    simp only [World.step]
    split
    · exact covered_pump h (finishTurn stream waker) (acts_finishTurn stream waker) hcareful
    · exact h
  | send stream chunk waker =>
    simp only [World.step]
    split
    · exact covered_pump h (sendTurn stream chunk waker) (acts_sendTurn stream chunk waker) hcareful
    · exact h
  | sendData stream data =>
    simp only [World.step]
    split
    · obtain ⟨hgrows, hterminal⟩ := grows_sendData stream data w.core
      exact h.of_grows hgrows hterminal rfl fun _ h => h
    · exact h
  | reset stream code =>
    simp only [World.step]
    split
    · exact covered_reset h stream code hcareful
    · exact h
  | dropSend stream =>
    simp only [World.step]
    split
    · exact (covered_dropSend h stream hcareful).of_grows (.refl _) rfl rfl fun _ h => h
    · exact h
  | data stream waker =>
    simp only [World.step]
    split
    · have hpump := covered_pump h (dataTurn stream waker) (acts_dataTurn stream waker) hcareful
      exact hpump.of_grows (.refl _) rfl rfl fun _ h => h
    · exact h
  | stopSending stream code =>
    simp only [World.step]
    split
    · exact covered_stopSending h stream code hcareful
    · exact h
  | dropRecv stream =>
    simp only [World.step]
    split
    · have hlock := covered_lock h (dropRecv stream) (keeps_releaseHandle w.core stream) fun hlive =>
        .inl ((terminal_releaseHandle _ _).trans hlive)
      exact hlock.of_grows (.refl _) rfl rfl fun _ h => h
    · exact h
  | deliver index =>
    simp only [World.step]
    split
    · rename_i delivery hnext
      exact covered_deliver h hnext
    · exact h
  | timer =>
    simp only [World.step]
    split
    · split
      · exact h.of_grows (.refl _) rfl rfl fun _ hmem => List.mem_append_left _ hmem
      · exact h
    · exact h
  | arrive datagram => exact h.of_grows (.of_eq rfl rfl) rfl rfl fun _ h => h
  | takeOutbound => exact h.of_grows (.of_eq rfl rfl) rfl rfl fun _ h => h
  | advance nanos => exact h.of_grows (.of_eq rfl rfl) rfl rfl fun _ h => h

def CarefulRun : World κ → List Action → Prop
  | _, [] => True
  | w, action :: actions => Careful w action ∧ CarefulRun (w.step action) actions

theorem covered_reached {w : World κ} (h : Covered w) {actions : List Action} (hrun : CarefulRun w actions) :
    Covered (w.reached actions) := by
  induction actions generalizing w with
  | nil => exact h
  | cons action actions ih => exact ih (covered_step h action hrun.1) hrun.2

/-- Nobody waits on a connection that has ended, once nothing is to be delivered. -/
theorem nobody_waits_reached (conn : κ) (initiator : Initiator) (shared : ConnectionShared) (now : ℕ)
    (actions : List Action) (hrun : CarefulRun (fromDetached conn initiator shared now) actions) :
    let w := (fromDetached conn initiator shared now).reached actions
    w.core.terminal.isSome = true → w.deliveries = [] → NobodyWaits w.shared.wakers := by
  intro w hended hquiet
  have hnew : Covered (fromDetached conn initiator shared now) :=
    ⟨fun _ hwaits => absurd rfl hwaits, nofun, nofun⟩
  have hcovered : Covered w := covered_reached hnew hrun
  constructor
  · by_contra hwaits
    obtain ⟨delivery, hmem, -⟩ := hcovered.connection hended hwaits
    rw [hquiet] at hmem
    cases hmem
  · intro stream
    by_contra hwaits
    obtain ⟨delivery, hmem, -⟩ := hcovered.streams hended stream hwaits
    rw [hquiet] at hmem
    cases hmem

end Worlds

/-! ## A task that is left behind -/

/-- The server waits for a stream when the peer closes the connection. -/
def closedMeanwhile : World PlannedConnection :=
  fromDetached { script := { reads := [(.ok .draining, [])] } } .server {} 0

theorem nobody_waits_closedMeanwhile :
    NobodyWaits (closedMeanwhile.reached
      [.accept true 0, .deliver 0, .arrive [1], .openStream false 1, .deliver 0]).shared.wakers :=
  nobody_waits_reached _ _ _ _ _
    ⟨fun _ => .inl rfl, trivial, trivial, fun hlive => (Option.some_ne_none _ hlive).elim, trivial, trivial⟩ rfl rfl

/-- The task that accepts streams waits for ever once another one has failed to open one. -/
theorem accept_left_behind : ∃ (conn : PlannedConnection) (actions : List Action),
    let w := (fromDetached conn .server {} 0).reached actions
    w.core.terminal.isSome = true ∧ w.deliveries = [] ∧ ¬ NobodyWaits w.shared.wakers := by
  refine ⟨{ script := {}, opens := [.error ⟨.internal, false⟩], left := 1 },
    [.accept true 0, .deliver 0, .openStream false 1, .deliver 0], rfl, rfl, fun hnobody => ?_⟩
  exact nomatch (show ([0] : List Waker) = [] from hnobody.connection)

end Ngnet.QuicHyperium
