import Ngnet.QuicDatagramLedger
import Ngnet.QuicEndpointDriver

/-!
# The datagrams of an endpoint

Every operation of the driver, and every action of a handle or an owner, takes steps of the ledger of
datagrams. A datagram is lost where the socket fails as it is flushed, or where a connection is removed that
holds one; a close goes to the outbox where the slot of its connection is taken.
-/

namespace Ngnet.QuicDatagrams
open QmuxVarints QmuxStreams InterleavedPrograms QuicEndpoint QuicEndpointDriver QuicDatagramLedger
open QuicStreamWrites (StreamWrite)

variable {κ σ π : Type} {w w' : World κ σ π} {i c : ℕ} {tracked : Tracked κ} {conn : κ} {may : Kind → Prop}

def slotOf (tracked : Tracked κ) : Slot := ⟨tracked.shared, tracked.conn.isSome, tracked.pending⟩

def queueOf (s : ConnectionShared) : Queue := ⟨s.outbound, s.closeOutbound, s.terminal⟩

/-- Where the datagrams of an endpoint are. -/
def ledger (w : World κ σ π) : Ledger where
  slots i := (w.driver.connections[i]?).map slotOf
  queues c := queueOf (w.shareds c)
  created := w.created
  nextIndex := w.driver.nextIndex
  dials := (w.driver.dialing ++ w.endpoint.dials ++ w.connecting).map (·.shared)
  detached := w.owned ++ w.ready.map (·.shared)
  outbox := w.history.outboxOrigins.zip (w.driver.outbox.map (·.2))
  produced := w.history.produced
  completed := w.history.completed

/-- The ledger knows whose every datagram of the outbox is. -/
def Matched (w : World κ σ π) : Prop := w.history.outboxOrigins.length = w.driver.outbox.length

/-- From one state to the other, the datagrams take steps of the ledger. -/
def Moves (may : Kind → Prop) (w w' : World κ σ π) : Prop :=
  Matched w → Steps may (ledger w) (ledger w') ∧ Matched w'

theorem Moves.trans {w'' : World κ σ π} (h : Moves may w w') (h' : Moves may w' w'') : Moves may w w'' := by
  intro hmatched
  obtain ⟨hsteps, hmatched'⟩ := h hmatched
  obtain ⟨hsteps', hmatched''⟩ := h' hmatched'
  exact ⟨hsteps.trans hsteps', hmatched''⟩

theorem moves_of_eq (hledger : ledger w' = ledger w) (hmatched : Matched w → Matched w') : Moves may w w' :=
  fun h => ⟨hledger ▸ .refl, hmatched h⟩

theorem moves_refl : Moves may w w := moves_of_eq rfl id

theorem moves_step (hstep : Step may (ledger w) (ledger w')) (hmatched : Matched w → Matched w') : Moves may w w' :=
  fun h => ⟨.single hstep, hmatched h⟩

/-! ## Changes of one part -/

theorem slots_insert (connections : Std.TreeMap ℕ (Tracked κ)) (i : ℕ) (tracked : Tracked κ) :
    (fun j => ((connections.insert i tracked)[j]?).map slotOf) =
      Function.update (fun j => (connections[j]?).map slotOf) i (some (slotOf tracked)) := by
  funext j
  rw [Std.TreeMap.getElem?_insert, Function.update_apply]
  by_cases hj : j = i
  · simp [hj]
  · simp [hj, Ne.symm hj]

theorem ledger_setTracked (w : World κ σ π) (i : ℕ) (tracked : Tracked κ) :
    ledger (w.setTracked i tracked) = (ledger w).setSlot i (some (slotOf tracked)) := by
  simp only [ledger, World.setTracked, World.onDriver, Ledger.setSlot, slots_insert]

theorem ledger_modifyShared (w : World κ σ π) (c : ℕ) (f : ConnectionShared → ConnectionShared) :
    ledger (w.modifyShared c f) = (ledger w).setQueue c (queueOf (f (w.shareds c))) := by
  have hqueues : (fun d => queueOf (Function.update w.shareds c (f (w.shareds c)) d)) =
      Function.update (fun d => queueOf (w.shareds d)) c (queueOf (f (w.shareds c))) := by
    funext d
    by_cases hd : d = c
    · simp [hd]
    · simp [Function.update_of_ne hd]
  simp only [ledger, World.modifyShared, Ledger.setQueue, hqueues]

theorem slots_ledger (h : w.driver.connections[i]? = some tracked) :
    (ledger w).slots i = some (slotOf tracked) := by
  simp [ledger, h]

theorem connections_setTracked (w : World κ σ π) (i : ℕ) (tracked : Tracked κ) :
    (w.setTracked i tracked).driver.connections[i]? = some tracked := Std.TreeMap.getElem?_insert_self

theorem moves_modifyShared {f : ConnectionShared → ConnectionShared} (hf : ∀ s, queueOf (f s) = queueOf s) :
    Moves may w (w.modifyShared c f) := by
  refine moves_of_eq ?_ id
  rw [ledger_modifyShared]
  exact setQueue_self (hf _).symm

theorem moves_setTracked {tracked' : Tracked κ} (h : w.driver.connections[i]? = some tracked)
    (hslot : slotOf tracked' = slotOf tracked) : Moves may w (w.setTracked i tracked') := by
  refine moves_of_eq ?_ id
  rw [ledger_setTracked, hslot]
  exact setSlot_self (slots_ledger h)

theorem queueOf_notes (notes : List Note) (s : ConnectionShared) : queueOf (notes.foldl .note s) = queueOf s := by
  induction notes generalizing s with
  | nil => rfl
  | cons note notes ih =>
    rw [List.foldl_cons, ih]
    cases note with
    | observe => rfl
    | observeRoute => rfl

section Ops
variable [Transport κ] [Socket σ] [Platform π κ]

omit [Transport κ] [Socket σ] in
theorem moves_now (w : World κ σ π) : Moves may w w.now.2 := moves_of_eq rfl id

variable {α : Type}

omit [Socket σ] [Platform π κ] in
theorem moves_callConn (h : w.driver.connections[i]? = some tracked) (hconn : tracked.conn = some conn)
    (call : ConnCall α) : Moves may w (w.callConn i tracked conn call).2 := by
  refine (moves_setTracked h ?_).trans (moves_modifyShared (queueOf_notes _))
  simp [slotOf, hconn]

omit [Socket σ] [Platform π κ] in
theorem connections_callConn (w : World κ σ π) (i : ℕ) (tracked : Tracked κ) (conn : κ) (call : ConnCall α) :
    ∃ conn', (w.callConn i tracked conn call).2.driver.connections[i]? = some { tracked with conn := some conn' } :=
  ⟨_, Std.TreeMap.getElem?_insert_self⟩

omit [Transport κ] [Socket σ] [Platform π κ] in
theorem moves_modifyTracked {f : Tracked κ → Tracked κ} (hf : ∀ tracked, slotOf (f tracked) = slotOf tracked) :
    Moves may w (w.modifyTracked i f) := by
  rw [World.modifyTracked]
  split
  · rename_i tracked h
    exact moves_setTracked h (hf tracked)
  · exact moves_refl

omit [Socket σ] [Platform π κ] in
theorem moves_setRetained : Moves may w (w.setRetained i) := by
  rw [World.setRetained]
  split
  · exact moves_refl
  split
  · exact moves_refl
  · exact moves_modifyShared fun _ => rfl

omit [Transport κ] [Socket σ] [Platform π κ] in
theorem moves_finish {w : World κ σ π} (c : ℕ) (error : Error) : Moves may w (w.finish i c error) := by
  have htracked : Moves may w (w.modifyTracked i ({ · with finished := true })) := moves_modifyTracked fun _ => rfl
  exact htracked.trans (moves_modifyShared fun _ => rfl)

omit [Socket σ] [Platform π κ] in
theorem moves_failClosed {w : World κ σ π} (c : ℕ) : Moves may w (w.failClosed i c) := by
  rw [World.failClosed]
  split
  · exact moves_modifyShared fun _ => rfl
  · exact moves_refl

omit [Transport κ] [Platform π κ] in
theorem pollSend_cases (w : World κ σ π) (tracked : Tracked κ) (d : Bytes) :
    ((w.pollSend tracked d).1 = .sent ∧
      ledger (w.pollSend tracked d).2 = (ledger w).complete (some tracked.shared, d) ∨
     (w.pollSend tracked d).1 ≠ .sent ∧ (w.pollSend tracked d).1 ≠ .nothing ∧
      ledger (w.pollSend tracked d).2 = ledger w) ∧
    (w.pollSend tracked d).2.driver.connections = w.driver.connections ∧
    (Matched (w.pollSend tracked d).2 ↔ Matched w) := by
  rw [World.pollSend]
  dsimp only
  split
  · exact ⟨.inl ⟨rfl, rfl⟩, rfl, .rfl⟩
  · exact ⟨.inr ⟨nofun, nofun, rfl⟩, rfl, .rfl⟩
  · exact ⟨.inr ⟨nofun, nofun, rfl⟩, rfl, .rfl⟩
  · exact ⟨.inr ⟨nofun, nofun, rfl⟩, rfl, .rfl⟩

variable {tracked' : Tracked κ}

omit [Transport κ] [Platform π κ] in
theorem moves_sendOrKeep (h : w.driver.connections[i]? = some tracked')
    (hshared : tracked'.shared = tracked.shared) (hdriven : tracked'.conn.isSome = true)
    (hpending : tracked'.pending = none) (d : Bytes) : Moves may w (w.sendOrKeep i tracked d) := by
  have hhand : InHand may (ledger w) (ledger (w.recordProduced (some tracked'.shared) d)) i (slotOf tracked') d :=
    inHand_produced (slots_ledger h) hdriven hpending
  rw [hshared] at hhand
  obtain ⟨hledger, hconnections, hmatched⟩ := pollSend_cases (w.recordProduced (some tracked.shared) d) tracked d
  rw [World.sendOrKeep]
  generalize (w.recordProduced (some tracked.shared) d).pollSend tracked d = result at hledger hconnections hmatched ⊢
  obtain ⟨disposition, w'⟩ := result
  intro hw
  cases disposition with
  | sent =>
    obtain ⟨-, hledger⟩ | ⟨hnot, -⟩ := hledger
    · have hsent := hhand.sent
      rw [show (slotOf tracked').shared = tracked.shared from hshared] at hsent
      exact ⟨hledger ▸ hsent, hmatched.mpr hw⟩
    · exact (hnot rfl).elim
  | _ =>
    obtain ⟨hsent, -⟩ | ⟨-, -, hledger⟩ := hledger
    · cases hsent
    · have htracked : w'.driver.connections[i]? = some tracked' := by
        rw [hconnections]
        exact h
      refine ⟨?_, ?_⟩
      · simp only [World.modifyTracked, htracked, ledger_setTracked, hledger]
        exact hhand.kept
      · simp only [World.modifyTracked, htracked]
        exact hmatched.mpr hw

/-! ## Commands -/

omit [Transport κ] [Socket σ] [Platform π κ] in
theorem moves_recordOffer (w : World κ σ π) (c : ℕ) (stream : StreamId) (offer : StreamOffer) :
    Moves may w (w.recordOffer c stream offer) := moves_of_eq rfl id

omit [Platform π κ] in
theorem moves_settleWrite (h : w.driver.connections[i]? = some tracked')
    (hshared : tracked'.shared = tracked.shared) (hdriven : tracked'.conn.isSome = true)
    (hpending : tracked'.pending = none) (write : Write) (outcome : Except CoreError StreamWrite) (buffer : Bytes) :
    Moves may w (w.settleWrite i tracked write outcome buffer) := by
  have hsends : Moves may w (w.sendProduced i tracked (World.produced outcome buffer)) := by
    cases World.produced outcome buffer with
    | some datagram => exact (moves_sendOrKeep h hshared hdriven hpending datagram).trans moves_setRetained
    | none => exact moves_refl
  refine hsends.trans ?_
  cases outcome with
  | error error => exact moves_modifyShared fun _ => rfl
  | ok outcome =>
    rw [World.settleWrite]
    split
    · exact moves_modifyShared fun _ => rfl
    · exact moves_refl

omit [Platform π κ] in
theorem moves_offerWrite (h : w.driver.connections[i]? = some tracked) (hconn : tracked.conn = some conn)
    (hpending : tracked.pending = none) (write : Write) (now : ℕ) :
    Moves may w (w.offerWrite i tracked conn write now) := by
  have hcall : Moves may w _ := moves_callConn h hconn (.writeStream write.stream (World.chunk conn write)
    (World.isLast conn write) now)
  obtain ⟨conn', htracked⟩ := connections_callConn w i tracked conn
    (.writeStream write.stream (World.chunk conn write) (World.isLast conn write) now)
  rw [World.offerWrite]
  generalize w.callConn i tracked conn (.writeStream write.stream (World.chunk conn write) (World.isLast conn write)
    now) = result at hcall htracked ⊢
  obtain ⟨⟨outcome, buffer⟩, w'⟩ := result
  dsimp only at hcall htracked ⊢
  refine hcall.trans ?_
  generalize hoffer : w'.recordOffer tracked.shared write.stream _ = w''
  have hdriver : w''.driver = w'.driver := by rw [← hoffer, World.recordOffer, World.onHistory]
  have hrecord : Moves may w' w'' := by
    rw [← hoffer]
    exact moves_recordOffer w' tracked.shared write.stream _
  rw [← hdriver] at htracked
  exact hrecord.trans (moves_settleWrite htracked rfl rfl hpending write outcome buffer)

theorem moves_writeStream (write : Write) : Moves may w (w.writeStream i write) := by
  rw [World.writeStream]
  dsimp only
  refine (moves_now w).trans ?_
  split
  · exact moves_refl
  rename_i tracked h
  split
  · exact moves_modifyShared fun _ => rfl
  rename_i hpending
  split
  · exact moves_refl
  rename_i conn hconn
  exact moves_offerWrite h hconn (by simpa using hpending) write _

omit [Transport κ] [Socket σ] [Platform π κ] in
theorem moves_keepProduced (h : w.driver.connections[i]? = some tracked) (hconn : tracked.conn = some conn)
    (hpending : tracked.pending = none) (d : Bytes) :
    Moves may w ((w.recordProduced (some tracked.shared) d).modifyTracked i ({ · with pending := some d })) := by
  have hdriven : (slotOf tracked).driven = true := by simp [slotOf, hconn]
  have hstep : Step may (ledger w) _ := Step.produce (slots_ledger h) hdriven hpending d
  refine moves_step ?_ ?_
  · have hrecorded : (w.recordProduced (some tracked.shared) d).driver.connections[i]? = some tracked := h
    rw [World.modifyTracked, hrecorded]
    dsimp only
    rw [ledger_setTracked]
    exact hstep
  · intro hmatched
    have hrecorded : (w.recordProduced (some tracked.shared) d).driver.connections[i]? = some tracked := h
    rw [World.modifyTracked, hrecorded]
    exact hmatched

variable {d : Bytes}

omit [Transport κ] [Socket σ] [Platform π κ] in
theorem moves_pushOutbox {origin : Option ℕ} {destination : Address}
    (hstep : Step may (ledger w)
      { (ledger w).produce (origin, d) with outbox := (ledger w).outbox ++ [(origin, d)] }) :
    Moves may w ((w.recordProduced origin d).pushOutbox origin destination d) := by
  intro hmatched
  have hlength : w.history.outboxOrigins.length = (w.driver.outbox.map (·.2)).length := by
    rw [List.length_map]
    exact hmatched
  have houtbox : (w.history.outboxOrigins ++ [origin]).zip ((w.driver.outbox ++ [(destination, d)]).map (·.2)) =
      (ledger w).outbox ++ [(origin, d)] := by
    rw [List.map_append, List.zip_append hlength]
    rfl
  have hledger : ledger ((w.recordProduced origin d).pushOutbox origin destination d) =
      { (ledger w).produce (origin, d) with outbox := (ledger w).outbox ++ [(origin, d)] } := by
    rw [← houtbox]
    rfl
  refine ⟨hledger ▸ .single hstep, ?_⟩
  simp only [Matched, World.pushOutbox, World.recordProduced, World.onHistory, World.onDriver, List.length_append,
    List.length_singleton]
  rw [hmatched]

/-- Whether a close is written while the slot of the connection is taken. -/
def divertsClose (w : World κ σ π) (i code : ℕ) (reason : Bytes) : Bool :=
  match w.driver.connections[i]? with
  | none => false
  | some tracked =>
    match tracked.conn with
    | none => false
    | some conn =>
      match (Transport.call (.writeConnectionClose code reason w.now.1) conn).1.1 with
      | .ok len => tracked.pending.isSome && decide (0 < len)
      | .error _ => false

omit [Transport κ] [Socket σ] [Platform π κ] in
theorem moves_keepClose (h : w.driver.connections[i]? = some tracked')
    (hsame : tracked'.shared = tracked.shared ∧ tracked'.pending = tracked.pending) (hconn : tracked'.conn = some conn)
    (d : Bytes) (hdivert : tracked.pending.isSome = true → may .divert) : Moves may w (w.keepClose i tracked d) := by
  obtain ⟨hshared, hpending⟩ := hsame
  rw [World.keepClose, ← hshared, ← hpending]
  rw [← hpending] at hdivert
  cases hslot : tracked'.pending with
  | none => exact moves_keepProduced h hconn hslot d
  | some pending =>
    have hdriven : (slotOf tracked').driven = true := by simp [slotOf, hconn]
    exact moves_pushOutbox (Step.divert (hdivert (by simp [hslot])) (slots_ledger h) hdriven d)

omit [Socket σ] [Platform π κ] in
theorem moves_writeClose (h : w.driver.connections[i]? = some tracked) (hconn : tracked.conn = some conn)
    (code : ℕ) (reason : Bytes) (now : ℕ)
    (hdivert : ∀ len, (Transport.call (.writeConnectionClose code reason now) conn).1.1 = .ok len → 0 < len →
      tracked.pending.isSome = true → may .divert) :
    Moves may w (w.writeClose i tracked conn code reason now) := by
  have hcall : Moves may w _ := moves_callConn h hconn (.writeConnectionClose code reason now)
  obtain ⟨conn', htracked⟩ := connections_callConn w i tracked conn (.writeConnectionClose code reason now)
  have hanswer : (w.callConn i tracked conn (.writeConnectionClose code reason now)).1 =
      (Transport.call (.writeConnectionClose code reason now) conn).1 := rfl
  rw [World.writeClose]
  generalize w.callConn i tracked conn (.writeConnectionClose code reason now) = result at hcall htracked hanswer ⊢
  obtain ⟨⟨outcome, buffer⟩, w'⟩ := result
  refine hcall.trans ?_
  cases outcome with
  | error error => exact moves_refl
  | ok len =>
    dsimp only at hanswer htracked ⊢
    by_cases hlen : 0 < len
    · rw [if_pos hlen]
      exact moves_keepClose htracked ⟨rfl, rfl⟩ rfl _ (hdivert len (hanswer ▸ rfl) hlen)
    · rw [if_neg hlen]
      exact moves_refl

omit [Socket σ] in
theorem moves_closeConnection (code : ℕ) (reason : Bytes) (hdivert : divertsClose w i code reason = true → may .divert) :
    Moves may w (w.closeConnection i code reason) := by
  rw [World.closeConnection]
  dsimp only
  refine (moves_now w).trans ?_
  have hconnections : w.now.2.driver.connections = w.driver.connections := rfl
  generalize hnow : w.now = result at hconnections ⊢
  obtain ⟨now, w'⟩ := result
  dsimp only at hconnections ⊢
  split
  · exact moves_refl
  rename_i tracked h
  refine Moves.trans ?_ (moves_finish tracked.shared closedByEndpoint)
  cases hconn : tracked.conn with
  | none => exact moves_refl
  | some conn =>
    refine moves_writeClose h hconn code reason now fun len hanswer hlen hpending => hdivert ?_
    rw [hconnections] at h
    simp [divertsClose, h, hconn, hnow, hanswer, hlen, hpending]

omit [Socket σ] [Platform π κ] in
theorem moves_openStream (h : w.driver.connections[i]? = some tracked) (hconn : tracked.conn = some conn)
    (bidi : Bool) : Moves may w (w.openStream i tracked conn bidi) := by
  have hcall : Moves may w _ := moves_callConn h hconn (if bidi then .openBidiStream else .openUniStream)
  rw [World.openStream]
  generalize w.callConn i tracked conn _ = result at hcall ⊢
  obtain ⟨answer, w'⟩ := result
  refine hcall.trans ?_
  cases answer with
  | ok stream => exact moves_modifyShared fun _ => rfl
  | error error =>
    show Moves may w' (if _ then _ else _)
    split
    · exact moves_modifyShared fun _ => rfl
    · exact moves_modifyShared fun _ => rfl

theorem moves_applyCommand (h : w.driver.connections[i]? = some tracked) (hconn : tracked.conn = some conn)
    (command : Command)
    (hdivert : ∀ code reason, command = .close code reason → divertsClose w i code reason = true → may .divert) :
    Moves may w (w.applyCommand i tracked conn command) := by
  cases command with
  | openStream bidi => exact moves_openStream h hconn bidi
  | write stream data fin => exact moves_writeStream _
  | reset stream code => exact moves_callConn h hconn _
  | stopSending stream code => exact moves_callConn h hconn _
  | close code reason => exact moves_closeConnection code reason (hdivert code reason rfl)
  | extendCredit stream bytes =>
    rw [World.applyCommand]
    refine (moves_callConn h hconn (.extendMaxStreamOffset stream bytes)).trans ?_
    split
    · exact moves_refl
    rename_i tracked' h'
    split
    · exact moves_refl
    rename_i conn' hconn'
    exact moves_callConn h' hconn' _

/-- The next command, if it is a close, goes to the outbox. -/
def divertsNext (w : World κ σ π) (i : ℕ) : Bool :=
  match w.driver.taken with
  | .close code reason :: _ => divertsClose w i code reason
  | _ => false

theorem moves_runCommand (hdivert : divertsNext w i = true → may .divert) : Moves may w (w.runCommand i).2 := by
  rw [World.runCommand]
  split
  · exact moves_refl
  rename_i command taken htaken
  split
  · exact moves_of_eq rfl id
  rename_i tracked h
  split
  · exact moves_of_eq rfl id
  rename_i conn hconn
  have hpop : Moves may w (w.onDriver ({ · with taken })) := moves_of_eq rfl id
  have hsame : (w.onDriver ({ · with taken })).driver.connections = w.driver.connections := rfl
  rw [← hsame] at h
  refine hpop.trans (moves_applyCommand h hconn command ?_)
  rintro code reason rfl hcloses
  apply hdivert
  rw [divertsNext, htaken]
  exact hcloses

omit [Transport κ] [Socket σ] [Platform π κ] in
theorem moves_takeCommands : Moves may w (w.takeCommands i).2 := by
  rw [World.takeCommands]
  split
  · exact moves_refl
  rename_i tracked h
  split
  · exact moves_refl
  have htake : Moves may w (w.onDriver fun d =>
      { d with takenFrom := tracked.shared, taken := (w.shareds tracked.shared).commands }) := moves_of_eq rfl id
  refine htake.trans (Moves.trans (moves_modifyShared (c := tracked.shared) (f := ({ · with commands := [] })) fun _ => rfl) ?_)
  exact moves_of_eq rfl id

/-! ## Sending -/

omit [Transport κ] [Socket σ] [Platform π κ] in
theorem take_queueOf {s s' : ConnectionShared} (h : s.takeOutbound = (some d, s')) :
    (queueOf s).take = some (d, queueOf s') := by
  rw [ConnectionShared.takeOutbound] at h
  split at h
  · rename_i houtbound
    obtain ⟨hd, rfl⟩ := Prod.mk.inj h
    obtain rfl := Option.some.inj hd
    simp [Queue.take, queueOf, houtbound]
  · rename_i houtbound
    obtain ⟨hclose, rfl⟩ := Prod.mk.inj h
    simp [Queue.take, queueOf, houtbound, hclose]

/-- A datagram was taken out of its place, and its connection is tracked. -/
def Taken (may : Kind → Prop) (w w' : World κ σ π) (i : ℕ) (d : Bytes) : Prop :=
  ∃ tracked, w'.driver.connections[i]? = some tracked ∧
    (Matched w → InHand may (ledger w) (ledger w') i (slotOf tracked) d ∧ Matched w')

section
omit [Transport κ] [Socket σ] [Platform π κ]

theorem Taken.of_moves {w'' : World κ σ π} (h : Taken may w' w'' i d) (hmoves : Moves may w w') :
    Taken may w w'' i d := by
  obtain ⟨tracked, htracked, hhand⟩ := h
  refine ⟨tracked, htracked, fun hmatched => ?_⟩
  obtain ⟨hsteps, hmatched⟩ := hmoves hmatched
  exact ⟨(hhand hmatched).1.of_steps hsteps, (hhand hmatched).2⟩

theorem taken_pending (h : w.driver.connections[i]? = some tracked) (hpending : tracked.pending = some d) :
    Taken may w (w.setTracked i { tracked with pending := none }) i d := by
  refine ⟨_, connections_setTracked .., fun hmatched => ⟨?_, hmatched⟩⟩
  rw [ledger_setTracked]
  exact inHand_pending (slots_ledger h) hpending

theorem taken_queued (h : w.driver.connections[i]? = some tracked) (hpending : tracked.pending = none)
    {s : ConnectionShared} (hqueue : (w.shareds tracked.shared).takeOutbound = (some d, s)) :
    Taken may w (w.modifyShared tracked.shared fun _ => s) i d := by
  refine ⟨tracked, h, fun hmatched => ⟨?_, hmatched⟩⟩
  rw [ledger_modifyShared]
  exact inHand_queued (slots_ledger h) hpending (take_queueOf hqueue)

theorem taken_produced (h : w.driver.connections[i]? = some tracked) (hconn : tracked.conn = some conn)
    (hpending : tracked.pending = none) (d : Bytes) : Taken may w (w.recordProduced (some tracked.shared) d) i d := by
  have hdriven : (slotOf tracked).driven = true := by simp [slotOf, hconn]
  exact ⟨tracked, h, fun hmatched => ⟨inHand_produced (slots_ledger h) hdriven hpending, hmatched⟩⟩

end

/-- What `next_datagram` answers was taken out of its place. -/
def Answers (may : Kind → Prop) (w : World κ σ π) (i : ℕ) (result : Option Bytes × World κ σ π) : Prop :=
  match result.1 with
  | some d => Taken may w result.2 i d
  | none => Moves may w result.2

omit [Transport κ] [Socket σ] [Platform π κ] in
theorem Answers.of_moves {result : Option Bytes × World κ σ π} (h : Answers may w' i result) (hmoves : Moves may w w') :
    Answers may w i result := by
  obtain ⟨answer, w''⟩ := result
  cases answer with
  | some d => exact Taken.of_moves h hmoves
  | none => exact hmoves.trans h

omit [Socket σ] [Platform π κ] in
theorem answers_writeNext (h : w.driver.connections[i]? = some tracked) (hconn : tracked.conn = some conn)
    (hpending : tracked.pending = none) (now : ℕ) : Answers may w i (w.writeNext i tracked conn now) := by
  have hcall : Moves may w _ := moves_callConn h hconn (.writePkt now)
  obtain ⟨conn', htracked⟩ := connections_callConn w i tracked conn (.writePkt now)
  rw [World.writeNext]
  generalize w.callConn i tracked conn (.writePkt now) = result at hcall htracked ⊢
  obtain ⟨⟨outcome, buffer⟩, w'⟩ := result
  refine Answers.of_moves ?_ hcall
  cases outcome with
  | error error =>
    have hfail : Moves may w' (w'.modifyShared tracked.shared (·.fail (ofCore error))) := moves_modifyShared fun _ => rfl
    exact hfail
  | ok outcome =>
    cases outcome with
    | datagram len => exact taken_produced htracked rfl hpending (buffer.take len)
    | idle => exact moves_refl (w := w')
    | blocked => exact moves_refl (w := w')

omit [Socket σ] in
theorem answers_nextDatagram : Answers may w i (w.nextDatagram i) := by
  rw [World.nextDatagram]
  have hnow : Moves may w w.now.2 := moves_now w
  generalize w.now = result at hnow ⊢
  obtain ⟨now, w'⟩ := result
  refine Answers.of_moves ?_ hnow
  dsimp only
  split
  · exact moves_refl (w := w')
  rename_i tracked h
  split
  · rename_i pending hpending
    exact taken_pending h hpending
  rename_i hpending
  split
  · rename_i d s hqueue
    exact taken_queued h hpending hqueue
  split
  · exact moves_refl (w := w')
  rename_i conn hconn
  exact answers_writeNext h hconn hpending now

theorem moves_sendNext (hlose : (w.sendNext i).1 = .failed → may .lose) : Moves may w (w.sendNext i).2 := by
  have hanswers : Answers may w i (w.nextDatagram i) := answers_nextDatagram
  rw [World.sendNext] at hlose ⊢
  generalize w.nextDatagram i = result at hanswers hlose ⊢
  obtain ⟨_ | d, w'⟩ := result
  · exact hanswers
  obtain ⟨tracked, h, hhand⟩ : Taken may w w' i d := hanswers
  dsimp only at hlose ⊢
  rw [h] at hlose ⊢
  dsimp only at hlose ⊢
  obtain ⟨hledger, hconnections, hmatched⟩ := pollSend_cases w' tracked d
  generalize w'.pollSend tracked d = result at hlose hledger hconnections hmatched ⊢
  obtain ⟨disposition, w''⟩ := result
  intro hw
  obtain ⟨hhand, hw'⟩ := hhand hw
  cases disposition with
  | sent =>
    obtain ⟨-, hledger⟩ | ⟨hnot, -⟩ := hledger
    · exact ⟨hledger ▸ hhand.sent, hmatched.mpr hw'⟩
    · exact (hnot rfl).elim
  | nothing =>
    obtain ⟨hsent, -⟩ | ⟨-, hnot, -⟩ := hledger
    · cases hsent
    · exact (hnot rfl).elim
  | refused =>
    obtain ⟨hsent, -⟩ | ⟨-, -, hledger⟩ := hledger
    · cases hsent
    · have htracked : w''.driver.connections[i]? = some tracked := by
        rw [hconnections]
        exact h
      refine ⟨?_, ?_⟩
      · simp only [World.modifyTracked, htracked, ledger_setTracked, hledger]
        exact hhand.kept
      · simp only [World.modifyTracked, htracked]
        exact hmatched.mpr hw'
  | failed =>
    obtain ⟨hsent, -⟩ | ⟨-, -, hledger⟩ := hledger
    · cases hsent
    · exact ⟨hledger ▸ hhand.lost (hlose rfl), hmatched.mpr hw'⟩

omit [Transport κ] [Platform π κ] in
theorem moves_sendOutbox (hlose : w.sendOutbox.1 = .failed → may .lose) : Moves may w w.sendOutbox.2 := by
  rw [World.sendOutbox] at hlose ⊢
  split at hlose
  · exact moves_refl
  rename_i destination d outbox hdriver
  cases horigins : w.history.outboxOrigins with
  | nil =>
    intro hmatched
    rw [Matched, hdriver, horigins] at hmatched
    cases hmatched
  | cons origin origins =>
  have houtbox : (ledger w).outbox = (origin, d) :: origins.zip (outbox.map (·.2)) := by
    simp [ledger, hdriver, horigins]
  dsimp only at hlose ⊢
  split at hlose
  · have hstep : Step may (ledger w) _ := Step.sendOutbox houtbox
    refine moves_step ?_ ?_
    · simpa [ledger, World.onHistory, World.onDriver, horigins, Ledger.complete] using hstep
    · simp [Matched, World.onHistory, World.onDriver, hdriver, horigins]
  · exact moves_of_eq rfl id
  · exact moves_of_eq rfl id
  · have hstep : Step may (ledger w) _ := Step.loseOutbox (hlose rfl)
    refine moves_step ?_ ?_
    · simpa [ledger, World.onHistory, World.onDriver, hdriver, horigins] using hstep
    · simp [Matched, World.onHistory, World.onDriver, hdriver, horigins]

omit [Transport κ] [Socket σ] [Platform π κ] in
theorem moves_answerStranger (source : Address) (d : Bytes) : Moves may w (w.answerStranger source d) :=
  moves_pushOutbox (Step.answer d)

/-! ## Connections -/

omit [Transport κ] [Socket σ] [Platform π κ] in
theorem moves_report (index : ℕ) (updates : List RouteUpdate) : Moves may w (w.report index updates) :=
  moves_of_eq rfl id

omit [Transport κ] [Socket σ] [Platform π κ] in
theorem moves_recordChosen (c : ℕ) (cid : Bytes) : Moves may w (w.recordChosen c cid) := moves_of_eq rfl id

omit [Socket σ] [Platform π κ] in
theorem ledger_install (w : World κ σ π) (conn : κ) (shared : ℕ) (remote : Address) :
    ledger (w.install conn shared remote) = { ledger w with
      slots := Function.update (ledger w).slots w.driver.nextIndex (some ⟨shared, true, none⟩)
      nextIndex := w.driver.nextIndex + 1 } := by
  simp only [ledger, World.install, World.report, World.recordRoutes, World.onDriver, World.onHistory, slots_insert, slotOf,
    Option.isSome_some]

omit [Socket σ] in
theorem moves_dial : Moves may w w.dial := by
  rw [World.dial]
  split
  · exact moves_refl
  rename_i dial dialing hdialing
  have hdials : (ledger w).dials = dial.shared :: (dialing ++ w.endpoint.dials ++ w.connecting).map (·.shared) := by
    simp [ledger, hdialing]
  generalize Platform.dial (κ := κ) dial.remote dial.serverName w.driver.platform = result
  obtain ⟨built, platform⟩ := result
  dsimp only
  cases built with
  | ok conn =>
    have hstep : Step may (ledger w) _ := Step.track (c := dial.shared) (List.Perm.of_eq hdials)
    refine moves_step ?_ id
    dsimp only
    rw [ledger_install]
    exact hstep
  | error error =>
    have hdrop : Moves may w (w.onDriver ({ · with dialing, platform })) := by
      have hsub : ((dialing ++ w.endpoint.dials ++ w.connecting).map (·.shared)).Subperm (ledger w).dials := by
        rw [hdials]
        exact (List.sublist_cons_self _ _).subperm
      exact moves_step (Step.forget hsub) id
    exact hdrop.trans (moves_modifyShared fun _ => rfl)

variable {shared : ConnectionShared}

omit [Transport κ] [Socket σ] [Platform π κ] in
theorem step_ask (w : World κ σ π) (hshared : queueOf shared = {}) :
    Step may (ledger w) { ledger (w.ask shared) with dials := (ledger w).dials ++ [w.created] } := by
  have hqueues : (ledger (w.ask shared)).queues = Function.update (ledger w).queues w.created {} := by
    funext c
    rw [Function.update_apply]
    by_cases hc : c = w.created
    · simp [ledger, World.ask, hc, hshared]
    · simp [ledger, World.ask, hc]
  have hstep : Step may (ledger w) _ := Step.ask
  rw [show (ledger w).created = w.created from rfl, ← hqueues] at hstep
  exact hstep

omit [Transport κ] [Socket σ] [Platform π κ] in
theorem moves_ask (hshared : queueOf shared = {}) : Moves may w (w.ask shared) := by
  have hforget : Step may { ledger (w.ask shared) with dials := (ledger w).dials ++ [w.created] } _ :=
    Step.forget (List.sublist_append_left _ _).subperm
  exact fun hmatched => ⟨(Relation.ReflTransGen.single (step_ask w hshared)).tail hforget, hmatched⟩

omit [Socket σ] [Platform π κ] in
theorem moves_askInstall (hshared : queueOf shared = {}) (conn : κ) (remote : Address) :
    Moves may w ((w.ask shared).install conn w.created remote) := by
  have htrack : Step may { ledger (w.ask shared) with dials := (ledger w).dials ++ [w.created] } _ :=
    Step.track (List.perm_append_singleton w.created (ledger w).dials)
  refine fun hmatched => ⟨(Relation.ReflTransGen.single (step_ask w hshared)).tail ?_, hmatched⟩
  rw [ledger_install]
  exact htrack

omit [Socket σ] in
theorem moves_accept (packet : InitialPacket) (source : Address) (original : Bytes) (retried : Bool) :
    Moves may w (w.accept packet source original retried).2 := by
  rw [World.accept]
  generalize Platform.accept (κ := κ) source packet original retried w.driver.platform = result
  obtain ⟨built, platform⟩ := result
  have hplatform : Moves may w (w.onDriver ({ · with platform })) := moves_of_eq rfl id
  cases built with
  | error error => exact hplatform.trans (moves_ask rfl)
  | ok conn =>
    have hqueue : queueOf { detach := w.endpoint.detachedAccepts, detachToAcceptor := w.endpoint.detachedAccepts } = {} := rfl
    refine hplatform.trans ((moves_askInstall hqueue conn source).trans ?_)
    exact (moves_recordChosen _ packet.dcid).trans (moves_report _ _)

omit [Socket σ] in
theorem moves_begin (packet : InitialPacket) (source : Address) : Moves may w (w.begin packet source).2 := by
  have hdecide : Moves may w (w.decide packet source).2 := by
    rw [World.decide]
    split
    · exact moves_of_eq rfl id
    · exact moves_refl
  rw [World.begin]
  generalize w.decide packet source = result at hdecide ⊢
  obtain ⟨⟨decision, retried⟩, w'⟩ := result
  refine hdecide.trans ?_
  cases decision with
  | ignore => exact moves_refl (w := w')
  | retry datagram =>
    cases datagram with
    | none => exact moves_refl (w := w')
    | some datagram => exact moves_answerStranger source datagram
  | accept original => exact moves_accept packet source original retried

omit [Transport κ] [Socket σ] [Platform π κ] in
theorem moves_announce : Moves may w (w.announce i) := by
  rw [World.announce]
  split
  · exact moves_refl
  split
  · exact moves_refl
  · exact moves_of_eq rfl id

omit [Transport κ] [Socket σ] in
theorem moves_answerUnmatched (d : Bytes) (source : Address) : Moves may w (w.answerUnmatched d source) := by
  rw [World.answerUnmatched]
  generalize Platform.statelessReset (κ := κ) d w.driver.platform = result
  obtain ⟨answer, platform⟩ := result
  have hplatform : Moves may w (w.onDriver ({ · with platform })) := moves_of_eq rfl id
  refine hplatform.trans ?_
  cases answer with
  | some datagram => exact moves_answerStranger source datagram
  | none => exact moves_refl

omit [Socket σ] [Platform π κ] in
theorem moves_readPkt (h : w.driver.connections[i]? = some tracked) (hconn : tracked.conn = some conn) (d : Bytes)
    (now : ℕ) : Moves may w (w.readPkt i tracked conn d now) := by
  have hcall : Moves may w _ := moves_callConn h hconn (.readPkt d now)
  rw [World.readPkt]
  generalize w.callConn i tracked conn (.readPkt d now) = result at hcall ⊢
  obtain ⟨outcome, w'⟩ := result
  refine hcall.trans ?_
  cases outcome with
  | error error => exact moves_finish _ _
  | ok outcome =>
    cases outcome with
    | draining => exact moves_failClosed _
    | closing => exact moves_failClosed _
    | _ => exact moves_refl (w := w')

omit [Socket σ] in
theorem moves_deliver (d : Bytes) : Moves may w (w.deliver i d).2 := by
  rw [World.deliver]
  have hnow : Moves may w w.now.2 := moves_now w
  generalize w.now = result at hnow ⊢
  obtain ⟨now, w'⟩ := result
  refine hnow.trans ?_
  dsimp only
  split
  · exact moves_refl
  rename_i tracked h
  split
  · refine moves_modifyShared fun s => ?_
    rw [ConnectionShared.deliverInbound]
    split
    · rfl
    · rfl
  rename_i conn hconn
  exact moves_readPkt h hconn d now

omit [Socket σ] [Platform π κ] in
theorem moves_expire (h : w.driver.connections[i]? = some tracked) (hconn : tracked.conn = some conn) (now : ℕ) :
    Moves may w (w.expire i tracked conn now) := by
  have hcall : Moves may w _ := moves_callConn h hconn (.handleExpiry now)
  rw [World.expire]
  generalize w.callConn i tracked conn (.handleExpiry now) = result at hcall ⊢
  obtain ⟨outcome, w'⟩ := result
  refine hcall.trans ?_
  cases outcome with
  | error error => exact moves_modifyShared fun _ => rfl
  | ok outcome =>
    cases outcome with
    | handled => exact moves_refl (w := w')
    | idleClose =>
      have hover : Moves may w' (w'.modifyTracked i ({ · with finished := true })) := moves_modifyTracked fun _ => rfl
      exact hover.trans (moves_failClosed _)
    | terminal => exact moves_finish _ _

omit [Socket σ] in
theorem moves_handleExpiry : Moves may w (w.handleExpiry i).2 := by
  rw [World.handleExpiry]
  have hnow : Moves may w w.now.2 := moves_now w
  generalize w.now = result at hnow ⊢
  obtain ⟨now, w'⟩ := result
  refine hnow.trans ?_
  dsimp only
  split
  · exact moves_refl
  rename_i tracked h
  split
  · exact moves_refl
  rename_i conn hconn
  split
  · exact moves_refl
  · exact moves_expire h hconn now

section
omit [Transport κ] [Socket σ] [Platform π κ]

theorem moves_takeObserved : Moves may w (w.takeObserved i).2 := by
  rw [World.takeObserved]
  split
  · exact moves_refl
  · exact moves_modifyShared fun _ => rfl

theorem moves_modifySharedOf {f : ConnectionShared → ConnectionShared} (hf : ∀ s, queueOf (f s) = queueOf s) :
    Moves may w (w.modifySharedOf i f) := by
  rw [World.modifySharedOf]
  split
  · exact moves_refl
  · exact moves_modifyShared hf

theorem moves_handOver : Moves may w (w.handOver i) := by
  rw [World.handOver]
  split
  · exact moves_refl
  rename_i tracked h
  split
  · split
    · exact moves_refl
    rename_i conn hconn
    split
    · have hdriven : (slotOf tracked).driven = true := by simp [slotOf, hconn]
      have hstep : Step may (ledger w) _ := Step.handOver (slots_ledger h) hdriven
      have hledger := ledger_setTracked w i { tracked with conn := none }
      refine moves_step ?_ id
      show Step may _ { ledger (w.setTracked i { tracked with conn := none }) with
        detached := w.owned ++ List.map (·.shared) (w.ready ++ [_]) }
      rw [hledger, List.map_append, ← List.append_assoc]
      exact hstep
    · exact moves_modifyShared fun _ => rfl
  · exact moves_refl

theorem moves_applyRoutes : Moves may w (w.applyRoutes i) := by
  rw [World.applyRoutes]
  split
  · exact moves_refl
  rename_i tracked h
  have htake : Moves may w (w.modifyShared tracked.shared ({ · with routes := [] })) := moves_modifyShared fun _ => rfl
  exact htake.trans (moves_report i _)

theorem ledger_remove (w : World κ σ π) (i : ℕ) : ledger (w.remove i) = (ledger w).setSlot i none := by
  have hslots : (fun j => ((w.driver.connections.erase i)[j]?).map slotOf) =
      Function.update (fun j => (w.driver.connections[j]?).map slotOf) i none := by
    funext j
    rw [Std.TreeMap.getElem?_erase, Function.update_apply]
    by_cases hj : j = i
    · simp [hj]
    · simp [hj, Ne.symm hj]
  simp only [ledger, World.remove, World.onDriver, Ledger.setSlot, hslots]

theorem moves_remove (hmay : may (.remove i)) : Moves may w (w.remove i) := by
  refine moves_step ?_ id
  rw [ledger_remove]
  exact Step.remove hmay

end

omit [Socket σ] in
theorem moves_rearm : Moves may w w.rearm.2 := by
  rw [World.rearm]
  split
  · exact moves_of_eq rfl id
  · exact moves_of_eq rfl id

section
omit [Transport κ] [Socket σ] [Platform π κ]

theorem moves_failEach (entries : List α) (key : α → ℕ) (error : Error) :
    Moves may w (entries.foldl (fun w entry => w.modifyShared (key entry) (·.fail error)) w) := by
  induction entries generalizing w with
  | nil => exact moves_refl
  | cons entry entries ih =>
    have hfail : Moves may w (w.modifyShared (key entry) (·.fail error)) := moves_modifyShared fun _ => rfl
    exact hfail.trans ih

theorem moves_failAll (error : Error) : Moves may w (w.failAll error) :=
  moves_failEach w.driver.connections.toList (·.2.shared) error

theorem moves_dials (hledger : ledger w' = { ledger w with dials := (ledger w').dials })
    (hsub : (ledger w').dials.Subperm (ledger w).dials) (hmatched : Matched w → Matched w') : Moves may w w' := by
  refine moves_step ?_ hmatched
  rw [hledger]
  exact Step.forget hsub

theorem moves_failDials (error : Error) : Moves may w (w.failDials error) := by
  have hforget : Moves may w { w with endpoint := { w.endpoint with dials := [] } } := by
    refine moves_dials rfl (List.Sublist.subperm ?_) id
    simp only [ledger, List.map_append]
    simp
  exact hforget.trans (moves_failEach w.endpoint.dials (·.shared) error)

theorem moves_drainDials : Moves may w { w with
    endpoint := { w.endpoint with dials := [] }, driver := { w.driver with dialing := w.endpoint.dials } } := by
  refine moves_dials rfl (List.Sublist.subperm ?_) id
  simp only [ledger, List.map_append]
  simp

end

/-- What is asked of an operation, by the kinds of its steps. -/
def Asks (may : Kind → Prop) {α : Type} (op : Op κ α) (w : World κ σ π) : Prop :=
  match op with
  | .runCommand index => divertsNext w index = true → may .divert
  | .sendOutbox => w.sendOutbox.1 = .failed → may .lose
  | .sendNext index => (w.sendNext index).1 = .failed → may .lose
  | .remove index => may (.remove index)
  | _ => True

theorem moves_applyOp (op : Op κ α) (h : Asks may op w) : Moves may w (w.applyOp op).2 := by
  cases op with
  | await => exact moves_refl
  | drainDials => exact moves_drainDials
  | dial => exact moves_dial
  | pollRecv => exact moves_of_eq rfl id
  | route datagram => exact moves_refl
  | deliver index datagram => exact moves_deliver datagram
  | begin datagram source =>
    rw [World.applyOp]
    split
    · exact moves_begin _ source
    · exact moves_answerUnmatched datagram source
  | announce index => exact moves_announce
  | takeObserved index => exact moves_takeObserved
  | setRetained index => exact moves_setRetained
  | markEstablished index => exact moves_modifySharedOf fun _ => rfl
  | handOver index => exact moves_handOver
  | putBack index observed => exact moves_modifySharedOf fun _ => rfl
  | keys => exact moves_of_eq rfl id
  | applyRoutes index => exact moves_applyRoutes
  | takeCommands index => exact moves_takeCommands
  | runCommand index => exact moves_runCommand h
  | handleExpiry index => exact moves_handleExpiry
  | sendOutbox => exact moves_sendOutbox h
  | sendNext index => exact moves_sendNext h
  | isDone index => exact moves_refl
  | remove index => exact moves_remove h
  | rearm => exact moves_rearm
  | hasPending => exact moves_refl
  | failAll error => exact moves_failAll error
  | failDials error => exact moves_failDials error
  | markGone => exact moves_of_eq rfl id

end Ops

end Ngnet.QuicDatagrams
