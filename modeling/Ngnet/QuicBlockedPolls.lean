import Ngnet.ProgramParts
import Ngnet.QuicEndpointSteps
import Ngnet.QuicScriptedHost

/-!
# Polls of a blocked endpoint

`wake_driver` and `register_driver` of `endpoint/shared.rs`, over the driver of `QuicEndpointDriver`: a poll registers
the waker of its task, and `push`, `observe_route` and a pass that has read wake it. What it is to be blocked is said by
what the core, the host and the socket answer for as long as nothing happens.
-/

namespace Ngnet.QuicBlockedPolls
open QmuxVarints QmuxStreams InterleavedPrograms ProgramParts QuicEndpoint QuicEndpointDriver QuicEndpointSteps
open QuicStreamWrites (StreamWrite)
open QmuxConnection (Poll)

variable {κ σ π : Type}

/-! ## The waker of the driver -/

/-- The task that polls the driver: whether its waker is registered, and how often it was woken. -/
structure Task (κ σ π : Type) where
  world : World κ σ π
  registered : Bool := false
  woken : ℕ := 0

def Task.wakeDriver (s : Task κ σ π) : Task κ σ π :=
  if s.registered then { s with registered := false, woken := s.woken + 1 } else s

/-- A handler of a connection has recorded a change of an identifier. -/
def noted (w w' : World κ σ π) : Bool := w.history.noted.length < w'.history.noted.length

/-- A command was pushed, which is what makes a queue longer. -/
def pushed (w w' : World κ σ π) (index : ℕ) : Bool :=
  (w.driver.takenFrom :: (w.driver.connections[index]?).toList.map (·.shared)).any fun c =>
    (w.shareds c).commands.length < (w'.shareds c).commands.length

/-- What an operation of the driver does to its own task. A pass that has read wakes it once the timer is rearmed. -/
def Task.settle {β : Type} (s : Task κ σ π) (op : Op κ β) (world : World κ σ π) : Task κ σ π :=
  match op with
  | .await => { s with world, registered := true }
  | .runCommand index =>
    if pushed s.world world index || noted s.world world then { s with world : Task κ σ π }.wakeDriver else { s with world }
  | .deliver _ _ | .handleExpiry _ | .sendNext _ =>
    if noted s.world world then { s with world : Task κ σ π }.wakeDriver else { s with world }
  | .rearm => { s with world, woken := if s.world.history.progress.woken then s.woken + 1 else s.woken }
  | _ => { s with world }

/-- `poll`. -/
def poll (config : Config) (fuel : ℕ) : DriverM κ Unit := do
  perform .await
  passes config fuel 8

section Blocked
variable [Transport κ] [Socket σ] [Platform π κ]

instance : Atomic (Op κ) (Task κ σ π) where
  apply op s := ((s.world.applyOp op).1, s.settle op (s.world.applyOp op).2)

/-! ## Being blocked -/

/-- A call is answered so, its handlers see nothing, and it leaves the connection one of these. -/
def Answers {α : Type} (cores : κ → Prop) (conn : κ) (call : ConnCall α) (good : α → Prop) : Prop :=
  good (Transport.call call conn).1 ∧ (Transport.call call conn).2.1 = [] ∧ cores (Transport.call call conn).2.2

/-- A command has to wait: a stream for the limit of the peer, a write for flow control, for the congestion window or
because the connection is closing. -/
def Waits (cores : κ → Prop) (deadline : ℕ) (conn : κ) : Command → Prop
  | .openStream bidi => Answers cores conn (openCall bidi) fun answer =>
    ∃ error, answer = .error error ∧ error.kind = .blocked
  | .write stream data fin => ∀ now < deadline, Answers cores conn (offer conn ⟨stream, data, fin⟩ now) fun answer =>
    answer.1 ∈ [.ok .streamBlocked, .ok .connectionBlocked, .ok .blocked, .ok .idle]
  | _ => False

/-- What connections, the host and the socket may become while nothing happens before the deadline. -/
structure Setting (κ σ π : Type) where
  deadline : ℕ
  cores : ℕ → κ → Prop
  hosts : π → Prop
  sockets : σ → Prop
  /-- Whether the socket takes no datagram. -/
  refusing : Prop

/-- Nothing happens: every command has to wait, there is nothing to write or to read, and no timer is due. -/
structure Setting.Still (S : Setting κ σ π) (commands : ℕ → List Command) : Prop where
  waits : ∀ c conn, S.cores c conn → ∀ command ∈ commands c, Waits (S.cores c) S.deadline conn command
  nothing : ∀ c conn, S.cores c conn → ∀ now < S.deadline, Answers (S.cores c) conn (.writePkt now) fun answer =>
    answer.1 = .ok .idle ∨ answer.1 = .ok .blocked
  timer : ∀ c conn, S.cores c conn → ∀ expiry, Transport.expiry conn = some expiry → S.deadline ≤ expiry
  now : ∀ host, S.hosts host → (Platform.now (κ := κ) host).1 < S.deadline ∧ S.hosts (Platform.now (κ := κ) host).2
  arrange : ∀ host keys, S.hosts host → S.hosts (Platform.arrange (κ := κ) keys host).2
  sleep : ∀ host, S.hosts host → ∀ expiry, S.deadline ≤ expiry →
    (Platform.pollSleep (κ := κ) expiry host).1 = false ∧ S.hosts (Platform.pollSleep (κ := κ) expiry host).2
  recv : ∀ socket, S.sockets socket → (Socket.pollRecv socket).1 = .pending ∧ S.sockets (Socket.pollRecv socket).2
  send : S.refusing → ∀ socket, S.sockets socket → ∀ remote datagram,
    (Socket.pollSend remote datagram socket).1 ∈ [.pending, .ready (.ok .wouldBlock)] ∧
      S.sockets (Socket.pollSend remote datagram socket).2

/-- The datagrams that wait for the socket. -/
def waiting (w : World κ σ π) (tracked : Tracked κ) : List Bytes :=
  tracked.pending.toList ++ (w.shareds tracked.shared).outbound ++ (w.shareds tracked.shared).closeOutbound.toList

/-- Every queued command is blocked, nothing else is left to do, and what waits for the socket is refused by it. -/
structure BlockedIn (S : Setting κ σ π) (w : World κ σ π) : Prop where
  still : S.Still fun c => (w.shareds c).commands
  dials : w.endpoint.dials = []
  cores : ∀ (index : ℕ) (tracked : Tracked κ), w.driver.connections[index]? = some tracked →
    ∀ conn, tracked.conn = some conn → S.cores tracked.shared conn
  routes : ∀ (index : ℕ) (tracked : Tracked κ), w.driver.connections[index]? = some tracked →
    (w.shareds tracked.shared).routes = []
  once : ∀ (index index' : ℕ) (tracked tracked' : Tracked κ), w.driver.connections[index]? = some tracked →
    w.driver.connections[index']? = some tracked' → tracked.shared = tracked'.shared → index = index'
  host : S.hosts w.driver.platform
  socket : S.sockets w.driver.socket
  refused : S.refusing ∨ w.driver.outbox = [] ∧
    ∀ (index : ℕ) (tracked : Tracked κ), w.driver.connections[index]? = some tracked → waiting w tracked = []

def Blocked (w : World κ σ π) : Prop := ∃ S, BlockedIn S w

/-! ## Queues -/

/-- All that is shared with a handle, but for the queue to the socket. -/
def inbox (s : ConnectionShared) : ConnectionShared := { s with outbound := [], closeOutbound := none }

/-- Every queue holds what it held. A datagram may have moved from the queue of a connection to the slot of those that
the socket refused. -/
structure Alike (w w' : World κ σ π) : Prop where
  endpoint : w'.endpoint = w.endpoint
  shareds : ∀ c, inbox (w'.shareds c) = inbox (w.shareds c)
  outbox : w'.driver.outbox = w.driver.outbox
  waiting : ∀ (index : ℕ) (tracked' : Tracked κ), w'.driver.connections[index]? = some tracked' →
    ∃ tracked : Tracked κ, w.driver.connections[index]? = some tracked ∧ tracked'.shared = tracked.shared ∧
      waiting w' tracked' = waiting w tracked

/-- A poll returns, leaves the queues as they were, and does not wake its own task. -/
def Rests (config : Config) (fuel : ℕ) (s : Task κ σ π) : Prop :=
  Completes (poll (κ := κ) config fuel) s fun _ t => Alike s.world t.world ∧ t.woken = s.woken

/-- The endpoint drives a connection that has commands. -/
def HasCommands (w : World κ σ π) : Prop :=
  ∃ (index : ℕ) (tracked : Tracked κ), w.driver.connections[index]? = some tracked ∧ tracked.conn.isSome = true ∧
    (w.shareds tracked.shared).commands ≠ []

end Blocked

/-! ## What holds throughout a poll -/

/-- What is shared with a handle, but for the commands and the queue to the socket. -/
def bare (s : ConnectionShared) : ConnectionShared := { inbox s with commands := [] }

/-- What has become of a blocked endpoint in the course of a poll. The connections have these commands queued; as long as
it is full, no connection was evicted. -/
structure Resting (S : Setting κ σ π) (w₀ : World κ σ π) (queues : ℕ → List Command) (full : Prop) (w : World κ σ π) :
    Prop where
  endpoint : w.endpoint = w₀.endpoint
  shareds : ∀ c, bare (w.shareds c) = bare (w₀.shareds c)
  commands : ∀ c, (w.shareds c).commands = queues c
  outbox : w.driver.outbox = w₀.driver.outbox
  tracked : ∀ (index : ℕ) (tracked : Tracked κ), w.driver.connections[index]? = some tracked →
    ∃ tracked₀ : Tracked κ, w₀.driver.connections[index]? = some tracked₀ ∧ tracked.shared = tracked₀.shared ∧
      tracked.conn.isSome = tracked₀.conn.isSome ∧ waiting w tracked = waiting w₀ tracked₀ ∧
      ∀ conn, tracked.conn = some conn → S.cores tracked.shared conn
  driven : full → ∀ index : ℕ, (w₀.driver.connections[index]?).isSome = true →
    (w.driver.connections[index]?).isSome = true
  host : S.hosts w.driver.platform
  socket : S.sockets w.driver.socket
  noted : w.history.noted = w₀.history.noted
  unread : w.history.progress.woken = false

variable {S : Setting κ σ π} {w₀ w : World κ σ π} {queues : ℕ → List Command} {full : Prop} {index c : ℕ}
  {tracked : Tracked κ} {conn : κ}

theorem inbox_eq_of_bare {s s' : ConnectionShared} (h : bare s = bare s') (hcommands : s.commands = s'.commands) :
    inbox s = inbox s' := by
  have hinbox : ∀ s : ConnectionShared, inbox s = { bare s with commands := s.commands } := fun _ => rfl
  rw [hinbox, hinbox, h, hcommands]

theorem Resting.alike (h : Resting S w₀ (fun c => (w₀.shareds c).commands) full w) : Alike w₀ w where
  endpoint := h.endpoint
  shareds c := inbox_eq_of_bare (h.shareds c) (h.commands c)
  outbox := h.outbox
  waiting := by
    intro index tracked' htracked
    obtain ⟨tracked, htracked₀, hshared, -, hwaiting, -⟩ := h.tracked index tracked' htracked
    exact ⟨tracked, htracked₀, hshared, hwaiting⟩

/-! ### Changes of one part -/

theorem connections_setTracked (w : World κ σ π) (index : ℕ) (tracked : Tracked κ) (j : ℕ) :
    (w.setTracked index tracked).driver.connections[j]? =
      if index = j then some tracked else w.driver.connections[j]? := by
  simp only [World.setTracked, World.onDriver, Std.TreeMap.getElem?_insert, Std.compare_eq_iff_eq]

theorem waiting_modifyShared {f : ConnectionShared → ConnectionShared}
    (hout : (f (w.shareds c)).outbound = (w.shareds c).outbound)
    (hclose : (f (w.shareds c)).closeOutbound = (w.shareds c).closeOutbound) (tracked : Tracked κ) :
    waiting (w.modifyShared c f) tracked = waiting w tracked := by
  by_cases heq : tracked.shared = c
  · subst heq
    simp [waiting, World.modifyShared, hout, hclose]
  · simp [waiting, World.modifyShared, heq]

theorem Resting.modifyShared (h : Resting S w₀ queues full w) {f : ConnectionShared → ConnectionShared}
    (hbare : bare (f (w.shareds c)) = bare (w.shareds c)) (hout : (f (w.shareds c)).outbound = (w.shareds c).outbound)
    (hclose : (f (w.shareds c)).closeOutbound = (w.shareds c).closeOutbound) :
    Resting S w₀ (Function.update queues c (f (w.shareds c)).commands) full (w.modifyShared c f) := by
  refine { h with shareds := ?_, commands := ?_, tracked := ?_ }
  · intro d
    by_cases heq : d = c
    · subst heq
      simpa [World.modifyShared, hbare] using h.shareds d
    · simpa [World.modifyShared, heq] using h.shareds d
  · intro d
    by_cases heq : d = c
    · subst heq
      simp [World.modifyShared]
    · simpa [World.modifyShared, heq] using h.commands d
  · intro index tracked htracked
    obtain ⟨tracked₀, htracked₀, hshared, hconn, hwaiting, hcores⟩ := h.tracked index tracked htracked
    exact ⟨tracked₀, htracked₀, hshared, hconn, (waiting_modifyShared hout hclose tracked).trans hwaiting, hcores⟩

theorem Resting.push (h : Resting S w₀ queues full w) (c : ℕ) (command : Command) :
    Resting S w₀ (Function.update queues c (queues c ++ [command])) full (w.modifyShared c (·.push command)) := by
  rw [← h.commands c]
  exact h.modifyShared (f := (·.push command)) rfl rfl rfl

theorem Resting.setConn (h : Resting S w₀ queues full w) (htracked : w.driver.connections[index]? = some tracked)
    (hsome : tracked.conn.isSome = true) (hconn : S.cores tracked.shared conn) :
    Resting S w₀ queues full (w.setTracked index { tracked with conn := some conn }) := by
  refine { h with tracked := ?_, driven := ?_ }
  · intro j t ht
    rw [connections_setTracked] at ht
    split_ifs at ht with hj
    · subst hj
      obtain rfl := Option.some.inj ht
      obtain ⟨tracked₀, htracked₀, hshared, hsome₀, hwaiting, -⟩ := h.tracked index tracked htracked
      refine ⟨tracked₀, htracked₀, hshared, by rw [← hsome₀, hsome]; rfl, hwaiting, ?_⟩
      rintro _ ⟨rfl⟩
      exact hconn
    · exact h.tracked j t ht
  · intro hfull j hj
    rw [connections_setTracked]
    split_ifs
    · rfl
    · exact h.driven hfull j hj

theorem modifyShared_id (w : World κ σ π) (c : ℕ) : w.modifyShared c (fun s => s) = w := by
  simp [World.modifyShared]

theorem Resting.recordOffer (h : Resting S w₀ queues full w) (c : ℕ) (stream : StreamId) (offer : StreamOffer) :
    Resting S w₀ queues full (w.recordOffer c stream offer) := { h with }

theorem Resting.of_connections {connections : Std.TreeMap ℕ (Tracked κ)}
    (h : Resting S w₀ queues full (w.onDriver ({ · with connections })))
    (heq : ∀ j : ℕ, w.driver.connections[j]? = connections[j]?) : Resting S w₀ queues full w := by
  refine { h with tracked := ?_, driven := ?_ }
  · intro j t ht
    rw [heq] at ht
    exact h.tracked j t ht
  · intro hfull j hj
    rw [heq]
    exact h.driven hfull j hj

theorem Resting.remove (h : Resting S w₀ queues full w) (index : ℕ) : Resting S w₀ queues False (w.remove index) := by
  refine { h with tracked := ?_, driven := False.elim }
  intro j t ht
  simp only [World.remove, World.onDriver, Std.TreeMap.getElem?_erase] at ht
  split_ifs at ht
  exact h.tracked j t ht

/-! ### Commands that were taken -/

/-- These commands of a connection are still to be run. -/
structure Taken (index c : ℕ) (rest : List Command) (w : World κ σ π) : Prop where
  taken : w.driver.taken = rest
  takenFrom : w.driver.takenFrom = c
  entry : ∃ tracked : Tracked κ, w.driver.connections[index]? = some tracked ∧ tracked.shared = c ∧
    tracked.conn.isSome = true

theorem Resting.takeCommands (h : Resting S w₀ queues full w) (htracked : w.driver.connections[index]? = some tracked)
    (hconn : tracked.conn.isSome = true) :
    (w.takeCommands index).1 = (queues tracked.shared).length ∧
      Resting S w₀ (Function.update queues tracked.shared []) full (w.takeCommands index).2 ∧
      Taken index tracked.shared (queues tracked.shared) (w.takeCommands index).2 := by
  obtain ⟨conn, hconn'⟩ := Option.isSome_iff_exists.1 hconn
  unfold World.takeCommands
  simp only [htracked, hconn', h.commands]
  have hemptied := h.modifyShared (c := tracked.shared) (f := ({ · with commands := [] })) rfl rfl rfl
  exact ⟨trivial, { hemptied with }, ⟨rfl, rfl, tracked, htracked, rfl, hconn⟩⟩

theorem takeCommands_idle (h : ∀ tracked : Tracked κ, w.driver.connections[index]? = some tracked → tracked.conn = none) :
    w.takeCommands index = (0, w) := by
  unfold World.takeCommands
  cases htracked : w.driver.connections[index]? with
  | none => rfl
  | some tracked => simp [h tracked htracked]

theorem update_concat (queues : ℕ → List Command) (c : ℕ) (run : List Command) (command : Command) :
    Function.update (Function.update queues c run) c (Function.update queues c run c ++ [command]) =
      Function.update queues c (run ++ [command]) := by
  simp

/-! ### The task -/

/-- What has become of the task: it was woken at most once since it had this count, and then for a command. -/
structure Polling (S : Setting κ σ π) (w₀ : World κ σ π) (queues : ℕ → List Command) (full : Prop) (count : ℕ)
    (woke : Prop) (s : Task κ σ π) : Prop where
  resting : Resting S w₀ queues full s.world
  counted : (s.registered = true ∧ s.woken = count) ∨ (s.registered = false ∧ s.woken = count + 1 ∧ HasCommands w₀)
  woke : woke → s.registered = false

variable {s : Task κ σ π} {count : ℕ} {woke : Prop}

@[simp] theorem world_wakeDriver (s : Task κ σ π) : s.wakeDriver.world = s.world := by
  unfold Task.wakeDriver
  split_ifs <;> rfl

theorem noted_eq_false {queues' : ℕ → List Command} {full' : Prop} {w' : World κ σ π} (h : Resting S w₀ queues full w)
    (h' : Resting S w₀ queues' full' w') : noted w w' = false := by
  simp [noted, h.noted, h'.noted]

theorem Polling.still {queues' : ℕ → List Command} {full' : Prop} {world : World κ σ π}
    (h : Polling S w₀ queues full count woke s) (hworld : Resting S w₀ queues' full' world) :
    Polling S w₀ queues' full' count woke { s with world } := ⟨hworld, h.counted, h.woke⟩

theorem Polling.wakeDriver {queues' : ℕ → List Command} {world : World κ σ π} (h : Polling S w₀ queues full count woke s)
    (hworld : Resting S w₀ queues' full world) (hcommands : HasCommands w₀) (woke' : Prop) :
    Polling S w₀ queues' full count woke' { s with world : Task κ σ π }.wakeDriver := by
  rcases h.counted with ⟨hregistered, hcount⟩ | ⟨hregistered, hcount, -⟩
  · simp only [Task.wakeDriver, hregistered, if_true]
    exact ⟨hworld, .inr ⟨rfl, by rw [hcount], hcommands⟩, fun _ => rfl⟩
  · simp only [Task.wakeDriver, hregistered, Bool.false_eq_true, if_false]
    exact ⟨hworld, .inr ⟨rfl, hcount, hcommands⟩, fun _ => rfl⟩

theorem Resting.hasCommands (h : Resting S w₀ queues full w) (htracked : w.driver.connections[index]? = some tracked)
    (hconn : tracked.conn.isSome = true) (hcommands : (w₀.shareds tracked.shared).commands ≠ []) : HasCommands w₀ := by
  obtain ⟨tracked₀, htracked₀, hshared, hsome, -⟩ := h.tracked index tracked htracked
  exact ⟨index, tracked₀, htracked₀, hsome ▸ hconn, hshared ▸ hcommands⟩

/-- The commands at this index, as they were before the poll. -/
def HasCommandsAt (w : World κ σ π) (index : ℕ) : Prop :=
  ∃ tracked : Tracked κ, w.driver.connections[index]? = some tracked ∧ tracked.conn.isSome = true ∧
    (w.shareds tracked.shared).commands ≠ []

variable [Transport κ]

theorem callConn_of_answers {α : Type} {call : ConnCall α} {good : α → Prop} {cores : κ → Prop}
    (h : Answers cores conn call good) (w : World κ σ π) (index : ℕ) (tracked : Tracked κ) :
    w.callConn index tracked conn call =
      ((Transport.call call conn).1, w.setTracked index { tracked with conn := some (Transport.call call conn).2.2 }) := by
  obtain ⟨-, hnotes, -⟩ := h
  simp only [World.callConn, hnotes, List.foldl_nil, List.filterMap_nil, modifyShared_id]
  simp [World.recordRoutes, World.onHistory]

theorem Resting.due (h : Resting S w₀ queues full w) {expiry : ℕ} (hexpiry : w.earliestExpiry = some expiry)
    (hb : ∀ c conn, S.cores c conn → ∀ expiry, Transport.expiry conn = some expiry → S.deadline ≤ expiry) :
    S.deadline ≤ expiry := by
  have hmem := List.min?_mem hexpiry
  obtain ⟨⟨index, tracked⟩, htracked, hexpiry⟩ := List.mem_filterMap.1 hmem
  obtain ⟨-, -, -, -, -, hcores⟩ := h.tracked index tracked (Std.TreeMap.mem_toList_iff_getElem?_eq_some.1 htracked)
  simp only at hexpiry
  split_ifs at hexpiry
  obtain ⟨conn, hconn, hexpiry⟩ := Option.bind_eq_some_iff.1 hexpiry
  exact hb _ conn (hcores conn hconn) expiry hexpiry

theorem Resting.openStream_waits {run : List Command} {bidi : Bool} (h : Resting S w₀ (Function.update queues c run) full w)
    (htracked : w.driver.connections[index]? = some tracked) (hshared : tracked.shared = c)
    (hfrom : w.driver.takenFrom = c) (hconn : tracked.conn = some conn)
    (hwaits : Waits (S.cores c) S.deadline conn (.openStream bidi)) :
    Resting S w₀ (Function.update queues c (run ++ [.openStream bidi])) full (w.openStream index tracked conn bidi) ∧
      Taken index c w.driver.taken (w.openStream index tracked conn bidi) := by
  have hwaits : Answers (S.cores c) conn (openCall bidi) fun answer =>
      ∃ error, answer = .error error ∧ error.kind = .blocked := hwaits
  obtain ⟨error, herror, hkind⟩ := hwaits.1
  have hcall := callConn_of_answers hwaits w index tracked
  rw [herror] at hcall
  unfold World.openStream
  simp only [openCall] at hcall
  simp only [hcall, hkind, if_true]
  have hset := h.setConn htracked (by rw [hconn]; rfl) (hshared ▸ hwaits.2.2)
  have hpush := hset.push w.driver.takenFrom (.openStream bidi)
  rw [hfrom, update_concat] at hpush
  refine ⟨?_, ⟨rfl, hfrom, ?_⟩⟩
  · change Resting S w₀ _ full (World.modifyShared _ w.driver.takenFrom _)
    rw [hfrom]
    exact hpush
  · exact ⟨_, (connections_setTracked _ _ _ _).trans (if_pos rfl), hshared, rfl⟩

variable [Socket σ]

theorem settleWrite_waits {outcome : Except CoreError StreamWrite} {buffer : Bytes} {write : Write}
    (h : outcome ∈ [.ok .streamBlocked, .ok .connectionBlocked, .ok .blocked, .ok .idle]) (w : World κ σ π)
    (index : ℕ) (tracked : Tracked κ) : w.settleWrite index tracked write outcome buffer =
      w.modifyShared tracked.shared (·.push (.write write.stream write.data write.fin)) := by
  simp only [List.mem_cons, List.not_mem_nil, or_false] at h
  rcases h with rfl | rfl | rfl | rfl <;> rfl

variable [Platform π κ]

theorem Resting.now (h : Resting S w₀ queues full w) (hb : BlockedIn S w₀) : Resting S w₀ queues full w.now.2 :=
  { h with host := (hb.still.now _ h.host).2 }

theorem now_lt (h : Resting S w₀ queues full w) (hb : BlockedIn S w₀) : w.now.1 < S.deadline :=
  (hb.still.now _ h.host).1

/-! ### Service -/

theorem Resting.routes (h : Resting S w₀ queues full w) (hb : BlockedIn S w₀)
    (htracked : w.driver.connections[index]? = some tracked) : (w.shareds tracked.shared).routes = [] := by
  obtain ⟨tracked₀, htracked₀, hshared, -⟩ := h.tracked index tracked htracked
  have hroutes : (bare (w.shareds tracked.shared)).routes = (bare (w₀.shareds tracked.shared)).routes := by rw [h.shareds]
  rw [hshared] at hroutes ⊢
  exact hroutes.trans (hb.routes index tracked₀ htracked₀)

theorem Resting.applyRoutes (h : Resting S w₀ queues full w) (hb : BlockedIn S w₀) (index : ℕ) :
    Resting S w₀ queues full (w.applyRoutes index) := by
  unfold World.applyRoutes
  cases htracked : w.driver.connections[index]? with
  | none => exact h
  | some tracked =>
    have hroutes := h.routes hb htracked
    have hsame : w.modifyShared tracked.shared ({ · with routes := [] }) = w := by
      have hshared : ({ w.shareds tracked.shared with routes := [] } : ConnectionShared) = w.shareds tracked.shared := by
        rw [← hroutes]
      simp only [World.modifyShared, hshared, Function.update_eq_self]
    simp only [hsame, hroutes]
    exact { h with }

theorem Resting.handleExpiry (h : Resting S w₀ queues full w) (hb : BlockedIn S w₀) (index : ℕ) :
    w.handleExpiry index = (false, w.now.2) := by
  simp only [World.handleExpiry]
  have hconnections : w.now.2.driver.connections = w.driver.connections := rfl
  rw [hconnections]
  cases htracked : w.driver.connections[index]? with
  | none => rfl
  | some tracked =>
    obtain ⟨-, -, -, -, -, hcores⟩ := h.tracked index tracked htracked
    cases hconn : tracked.conn with
    | none => simp [hconn]
    | some conn =>
      have hall : (Transport.expiry conn).all (w.now.1 < ·) = true := by
        rw [Option.all_eq_true]
        intro expiry hexpiry
        have hdue := hb.still.timer _ _ (hcores conn hconn) expiry hexpiry
        have hnow := now_lt h hb
        exact decide_eq_true (hnow.trans_le hdue)
      simp [hconn, hall]

/-! ### Commands -/

section Command
variable {run rest : List Command} {command : Command}

theorem Resting.writeStream_waits {stream : StreamId} {data : Bytes} {fin : Bool} (hb : BlockedIn S w₀)
    (h : Resting S w₀ (Function.update queues c run) full w)
    (htracked : w.driver.connections[index]? = some tracked) (hshared : tracked.shared = c)
    (hfrom : w.driver.takenFrom = c) (hconn : tracked.conn = some conn)
    (hwaits : Waits (S.cores c) S.deadline conn (.write stream data fin)) :
    Resting S w₀ (Function.update queues c (run ++ [.write stream data fin])) full
        (w.writeStream index ⟨stream, data, fin⟩) ∧
      Taken index c w.driver.taken (w.writeStream index ⟨stream, data, fin⟩) := by
  subst hshared
  have hnow := h.now hb
  have htracked' : w.now.2.driver.connections[index]? = some tracked := htracked
  have hsome : tracked.conn.isSome = true := by rw [hconn]; rfl
  simp only [World.writeStream, htracked']
  split_ifs with hpending
  · -- The slot is taken, and the core is not asked.
    rw [← update_concat]
    exact ⟨hnow.push tracked.shared _, ⟨rfl, hfrom, tracked, htracked, rfl, hsome⟩⟩
  · have hoffer := hwaits w.now.1 (now_lt h hb)
    have hcall := callConn_of_answers hoffer w.now.2 index tracked
    simp only [hconn, World.offerWrite]
    simp only [offer] at hcall hoffer
    simp only [hcall, settleWrite_waits hoffer.1]
    have hset := hnow.setConn htracked' hsome hoffer.2.2
    rw [← update_concat]
    refine ⟨(hset.recordOffer _ _ _).push tracked.shared _, ⟨rfl, hfrom, ?_⟩⟩
    exact ⟨_, (connections_setTracked _ _ _ _).trans (if_pos rfl), rfl, rfl⟩

theorem Resting.runCommand (hb : BlockedIn S w₀)
    (hqueue : (w₀.shareds c).commands = run ++ command :: rest)
    (h : Resting S w₀ (Function.update queues c run) full w) (ht : Taken index c (command :: rest) w) :
    (w.runCommand index).1 = true ∧
      Resting S w₀ (Function.update queues c (run ++ [command])) full (w.runCommand index).2 ∧
      Taken index c rest (w.runCommand index).2 := by
  obtain ⟨htaken, hfrom, tracked, htracked, hshared, hsome⟩ := ht
  obtain ⟨conn, hconn⟩ := Option.isSome_iff_exists.1 hsome
  obtain ⟨-, -, -, -, -, hcores⟩ := h.tracked index tracked htracked
  have hwaits := hb.still.waits c conn (hshared ▸ hcores conn hconn) command (by rw [hqueue]; simp)
  have hrest : Resting S w₀ (Function.update queues c run) full (w.onDriver ({ · with taken := rest })) := { h with }
  simp only [World.runCommand, htaken, htracked, hconn, true_and]
  cases command with
  | openStream bidi => exact hrest.openStream_waits htracked hshared hfrom hconn hwaits
  | write stream data fin => exact hrest.writeStream_waits hb htracked hshared hfrom hconn hwaits
  | _ => exact hwaits.elim

end Command

/-! ### Sending -/

theorem Resting.sendOutbox (h : Resting S w₀ queues full w) (hb : BlockedIn S w₀) :
    w.sendOutbox.1 ∈ [Disposition.nothing, .refused] ∧ Resting S w₀ queues full w.sendOutbox.2 := by
  unfold World.sendOutbox
  cases houtbox : w.driver.outbox with
  | nil => exact ⟨by simp, h⟩
  | cons datagram outbox =>
    have hrefusing : S.refusing := by
      rcases hb.refused with hrefusing | ⟨hempty, -⟩
      · exact hrefusing
      · rw [← h.outbox, houtbox] at hempty
        cases hempty
    obtain ⟨hanswer, hsocket⟩ := hb.still.send hrefusing _ h.socket datagram.1 datagram.2
    simp only [List.mem_cons, List.not_mem_nil, or_false] at hanswer
    rcases hanswer with hanswer | hanswer
    · simp only [hanswer]
      exact ⟨by simp, { h with socket := hsocket }⟩
    · simp only [hanswer]
      exact ⟨by simp, { h with socket := hsocket }⟩

theorem Resting.refusing (h : Resting S w₀ queues full w) (hb : BlockedIn S w₀)
    (htracked : w.driver.connections[index]? = some tracked) (hwaiting : waiting w tracked ≠ []) : S.refusing := by
  rcases hb.refused with hrefusing | ⟨-, hnone⟩
  · exact hrefusing
  · obtain ⟨tracked₀, htracked₀, -, -, hsame, -⟩ := h.tracked index tracked htracked
    rw [hsame, hnone index tracked₀ htracked₀] at hwaiting
    exact absurd rfl hwaiting

theorem Resting.writeNext (h : Resting S w₀ queues full w) (hb : BlockedIn S w₀)
    (htracked : w.driver.connections[index]? = some tracked) (hconn : tracked.conn = some conn) {now : ℕ}
    (hnow : now < S.deadline) :
    (w.writeNext index tracked conn now).1 = none ∧ Resting S w₀ queues full (w.writeNext index tracked conn now).2 := by
  obtain ⟨-, -, -, -, -, hcores⟩ := h.tracked index tracked htracked
  have hanswers := hb.still.nothing _ _ (hcores conn hconn) now hnow
  have hset := h.setConn htracked (by rw [hconn]; rfl) hanswers.2.2
  have hcall := callConn_of_answers hanswers w index tracked
  rcases hanswer : (Transport.call (.writePkt now) conn).1 with ⟨answer, buffer⟩
  have hidle := hanswers.1
  rw [hanswer] at hcall hidle
  unfold World.writeNext
  rcases hidle with rfl | rfl
  · simp only [hcall]
    exact ⟨trivial, hset⟩
  · simp only [hcall]
    exact ⟨trivial, hset⟩

theorem Resting.requeue (h : Resting S w₀ queues full w) (hb : BlockedIn S w₀) {shared : ConnectionShared}
    {pending : Option Bytes} {socket : σ} (htracked : w.driver.connections[index]? = some tracked)
    (hbare : bare shared = bare (w.shareds tracked.shared))
    (hcommands : shared.commands = (w.shareds tracked.shared).commands)
    (hsame : pending.toList ++ shared.outbound ++ shared.closeOutbound.toList = waiting w tracked)
    (hsocket : S.sockets socket) :
    Resting S w₀ queues full (((w.modifyShared tracked.shared fun _ => shared).onDriver ({ · with socket })).setTracked index
      { tracked with pending }) := by
  obtain ⟨tracked₀, htracked₀, hshared, hconn, hwaiting, hcores⟩ := h.tracked index tracked htracked
  have hshareds : ∀ c, bare (Function.update w.shareds tracked.shared shared c) = bare (w₀.shareds c) := by
    intro c
    rw [Function.update_apply]
    split_ifs with heq
    · rw [heq, hbare, h.shareds]
    · exact h.shareds c
  refine { h with shareds := hshareds, commands := ?_, tracked := ?_, driven := ?_, socket := hsocket }
  · intro c
    show (Function.update w.shareds tracked.shared shared c).commands = _
    rw [Function.update_apply]
    split_ifs with heq
    · rw [heq, hcommands, h.commands]
    · exact h.commands c
  · intro j t ht
    rw [connections_setTracked] at ht
    split_ifs at ht with hj
    · subst hj
      obtain rfl := Option.some.inj ht
      refine ⟨tracked₀, htracked₀, hshared, hconn, ?_, hcores⟩
      rw [← hwaiting, ← hsame]
      simp [waiting, World.setTracked, World.onDriver, World.modifyShared]
    · obtain ⟨t₀, ht₀, htshared, htconn, htwaiting, htcores⟩ := h.tracked j t ht
      refine ⟨t₀, ht₀, htshared, htconn, ?_, htcores⟩
      -- Another connection has another queue.
      have hne : t.shared ≠ tracked.shared := by
        intro heq
        exact hj (hb.once index j tracked₀ t₀ htracked₀ ht₀ (hshared.symm.trans (heq.symm.trans htshared)))
      rw [← htwaiting]
      simp [waiting, World.setTracked, World.onDriver, World.modifyShared, hne]
  · intro hfull j hj
    rw [connections_setTracked]
    split_ifs
    · rfl
    · exact h.driven hfull j hj

theorem pollSend_refused (hb : BlockedIn S w₀) (hrefusing : S.refusing) (hsocket : S.sockets w.driver.socket)
    (tracked : Tracked κ) (datagram : Bytes) :
    ∃ socket, S.sockets socket ∧ w.pollSend tracked datagram = (.refused, w.onDriver ({ · with socket })) := by
  obtain ⟨hanswer, hsocket'⟩ := hb.still.send hrefusing _ hsocket tracked.remote datagram
  refine ⟨_, hsocket', ?_⟩
  simp only [List.mem_cons, List.not_mem_nil, or_false] at hanswer
  rcases hanswer with hanswer | hanswer <;> simp only [World.pollSend, hanswer]

theorem takeOutbound_some {s s' : ConnectionShared} {datagram : Bytes} (h : s.takeOutbound = (some datagram, s')) :
    bare s' = bare s ∧ s'.commands = s.commands ∧
      datagram :: (s'.outbound ++ s'.closeOutbound.toList) = s.outbound ++ s.closeOutbound.toList := by
  unfold ConnectionShared.takeOutbound at h
  cases houtbound : s.outbound with
  | cons first outbound =>
    simp only [houtbound, Prod.mk.injEq, Option.some.injEq] at h
    obtain ⟨rfl, rfl⟩ := h
    exact ⟨rfl, rfl, rfl⟩
  | nil =>
    simp only [houtbound, Prod.mk.injEq] at h
    obtain ⟨hclose, rfl⟩ := h
    exact ⟨rfl, rfl, by simp [hclose]⟩

theorem Resting.nextDatagram (h : Resting S w₀ queues full w) (hb : BlockedIn S w₀) (index : ℕ) :
    ((w.nextDatagram index).1 = none ∧ Resting S w₀ queues full (w.nextDatagram index).2) ∨
      ∃ (datagram : Bytes) (entry : Tracked κ), (w.nextDatagram index).1 = some datagram ∧ S.refusing ∧
        S.sockets (w.nextDatagram index).2.driver.socket ∧
        (w.nextDatagram index).2.driver.connections[index]? = some entry ∧
        ∀ socket, S.sockets socket → Resting S w₀ queues full
          (((w.nextDatagram index).2.onDriver ({ · with socket })).setTracked index { entry with pending := some datagram }) := by
  have hnow := h.now hb
  have hconnections : w.now.2.driver.connections = w.driver.connections := rfl
  have hshareds : w.now.2.shareds = w.shareds := rfl
  cases htracked : w.driver.connections[index]? with
  | none =>
    left
    simp only [World.nextDatagram, hconnections, htracked]
    exact ⟨trivial, hnow⟩
  | some tracked =>
    have htracked' : w.now.2.driver.connections[index]? = some tracked := htracked
    cases hpending : tracked.pending with
    | some datagram =>
      right
      have hrefusing : S.refusing := h.refusing hb htracked (by simp [waiting, hpending])
      simp only [World.nextDatagram, hconnections, htracked, hpending]
      refine ⟨datagram, { tracked with pending := none }, rfl, hrefusing, h.socket,
        (connections_setTracked _ _ _ _).trans (if_pos rfl), ?_⟩
      intro socket hsocket
      have hwaiting : (some datagram).toList ++ (w.shareds tracked.shared).outbound ++
          (w.shareds tracked.shared).closeOutbound.toList = waiting w.now.2 tracked := by
        simp [waiting, hpending, hshareds]
      have hkept := hnow.requeue hb htracked' rfl rfl hwaiting hsocket
      have hsame : (w.now.2.modifyShared tracked.shared fun _ => w.now.2.shareds tracked.shared) = w.now.2 := by
        simp [World.modifyShared]
      rw [hsame] at hkept
      refine Resting.of_connections hkept ?_
      intro j
      simp only [World.setTracked, World.onDriver, Std.TreeMap.getElem?_insert]
      split_ifs <;> rfl
    | none =>
      cases hqueued : (w.shareds tracked.shared).takeOutbound with
      | mk queued shared =>
        cases queued with
        | some datagram =>
          right
          obtain ⟨hbare, hcommands, hsame⟩ := takeOutbound_some hqueued
          have hsame : (some datagram).toList ++ shared.outbound ++ shared.closeOutbound.toList = waiting w tracked := by
            simp [waiting, hpending, ← hsame]
          have hrefusing : S.refusing := h.refusing hb htracked (by simp [← hsame])
          simp only [World.nextDatagram, hconnections, hshareds, htracked, hpending, hqueued]
          refine ⟨datagram, tracked, rfl, hrefusing, h.socket, htracked, ?_⟩
          intro socket hsocket
          exact hnow.requeue hb htracked' hbare hcommands hsame hsocket
        | none =>
          left
          simp only [World.nextDatagram, hconnections, hshareds, htracked, hpending, hqueued]
          cases hconn : tracked.conn with
          | none => exact ⟨rfl, hnow⟩
          | some conn => exact hnow.writeNext hb htracked' hconn (now_lt h hb)

theorem Resting.sendNext (h : Resting S w₀ queues full w) (hb : BlockedIn S w₀) (index : ℕ) :
    (w.sendNext index).1 ∈ [Disposition.nothing, .refused] ∧ Resting S w₀ queues full (w.sendNext index).2 := by
  rcases h.nextDatagram hb index with ⟨hnone, hrest⟩ | ⟨datagram, entry, hsome, hrefusing, hsocket, hentry, hkept⟩
  · rcases hnext : w.nextDatagram index with ⟨found, u⟩
    rw [hnext] at hnone hrest
    subst hnone
    simp only [World.sendNext, hnext]
    exact ⟨by simp, hrest⟩
  · rcases hnext : w.nextDatagram index with ⟨found, u⟩
    rw [hnext] at hsome hsocket hentry hkept
    subst hsome
    obtain ⟨socket, hsocket', hsend⟩ := pollSend_refused (w := u) hb hrefusing hsocket entry datagram
    have hentry' : (u.onDriver ({ · with socket })).driver.connections[index]? = some entry := hentry
    simp only [World.sendNext, hnext, hentry, hsend, World.modifyTracked, hentry']
    exact ⟨by simp, hkept socket hsocket'⟩

/-! ### The rest of a pass -/

theorem Resting.rearm (h : Resting S w₀ queues full w) (hb : BlockedIn S w₀) :
    w.rearm.1 = false ∧ Resting S w₀ queues full w.rearm.2 := by
  unfold World.rearm
  cases hexpiry : w.earliestExpiry with
  | none => exact ⟨rfl, { h with }⟩
  | some expiry =>
    obtain ⟨hfired, hhost⟩ := hb.still.sleep _ h.host expiry (h.due hexpiry hb.still.timer)
    simp only [hfired]
    exact ⟨trivial, { h with host := hhost }⟩

theorem Resting.pollRecv (h : Resting S w₀ queues full w) (hb : BlockedIn S w₀) :
    (w.applyOp .pollRecv).1 = .pending ∧ Resting S w₀ queues full (w.applyOp .pollRecv).2 := by
  obtain ⟨hanswer, hsocket⟩ := hb.still.recv _ h.socket
  simp only [World.applyOp, hanswer]
  exact ⟨trivial, { h with socket := hsocket, unread := by simp [World.onProgress, World.onDriver, h.unread] }⟩

theorem Resting.keys (h : Resting S w₀ queues full w) (hb : BlockedIn S w₀) :
    (w.applyOp .keys).1.Perm w.driver.connections.keys ∧ Resting S w₀ queues full (w.applyOp .keys).2 := by
  refine ⟨(Platform.arrange (κ := κ) w.driver.connections.keys w.driver.platform).1.2, ?_⟩
  exact { h with host := hb.still.arrange _ _ h.host }

theorem Resting.drainDials (h : Resting S w₀ queues full (w.onProgress ({ · with woken := false }))) (hb : BlockedIn S w₀) :
    (w.applyOp .drainDials).1 = 0 ∧ Resting S w₀ queues full (w.applyOp .drainDials).2 := by
  have hdials : w.endpoint.dials = [] := by
    rw [show w.endpoint = w₀.endpoint from h.endpoint]
    exact hb.dials
  have hendpoint : { w.endpoint with dials := [] } = w.endpoint := by
    rw [← hdials]
  simp only [World.applyOp, hdials, List.length_nil, hendpoint]
  exact ⟨trivial, { h with unread := rfl }⟩

/-! ## Polls -/

section Programs
variable {config : Config} {fuel : ℕ} (hb : BlockedIn S w₀)
include hb

theorem completes_runCommands {run rest : List Command} (hqueue : (w₀.shareds c).commands = run ++ rest)
    (h : Polling S w₀ (Function.update (fun c => (w₀.shareds c).commands) c run) full count woke s)
    (ht : Taken index c rest s.world) :
    Completes (runCommands (κ := κ) index rest.length) s fun _ t =>
      Polling S w₀ (fun c => (w₀.shareds c).commands) full count (woke ∨ rest ≠ []) t := by
  induction rest generalizing run s woke with
  | nil =>
    apply completes_pure
    have hrun : Function.update (fun c => (w₀.shareds c).commands) c run = fun c => (w₀.shareds c).commands := by
      rw [List.append_nil] at hqueue
      rw [← hqueue]
      exact Function.update_eq_self c _
    rw [hrun] at h
    exact ⟨h.resting, h.counted, fun hwoke => h.woke (hwoke.resolve_right (by simp))⟩
  | cons command rest ih =>
    obtain ⟨hgoes, hresting, hrest⟩ := h.resting.runCommand hb hqueue ht
    obtain ⟨tracked, htracked, hshared, hconn⟩ := ht.entry
    have hcommands : HasCommands w₀ :=
      h.resting.hasCommands htracked hconn (by rw [hshared, hqueue]; simp)
    have hpushed : pushed s.world (s.world.runCommand index).2 index = true := by
      simp only [pushed, List.any_cons, Bool.or_eq_true, decide_eq_true_eq]
      left
      rw [ht.takenFrom, h.resting.commands, hresting.commands]
      simp
    apply completes_bind
    apply completes_perform
    have hsettled : (Atomic.apply (Op.runCommand index : Op κ Bool) s).2 =
        { s with world := (s.world.runCommand index).2 : Task κ σ π }.wakeDriver := by
      show s.settle (.runCommand index : Op κ Bool) (s.world.runCommand index).2 = _
      simp [Task.settle, hpushed]
    have hanswer : (Atomic.apply (Op.runCommand index : Op κ Bool) s).1 = true := hgoes
    rw [hanswer, hsettled]
    have hqueue' : (w₀.shareds c).commands = (run ++ [command]) ++ rest := by
      rw [hqueue]
      simp
    have hnext := ih hqueue' (h.wakeDriver hresting hcommands True) (by rw [world_wakeDriver]; exact hrest)
    exact hnext.mono fun _ t ht => ⟨ht.resting, ht.counted, fun _ => ht.woke (.inl trivial)⟩

theorem completes_applyCommands (h : Polling S w₀ (fun c => (w₀.shareds c).commands) full count woke s) (index : ℕ) :
    Completes (applyCommands (κ := κ) index) s fun _ t =>
      Polling S w₀ (fun c => (w₀.shareds c).commands) full count (woke ∨ full ∧ HasCommandsAt w₀ index) t := by
  apply completes_bind
  apply completes_perform
  show Completes (runCommands index (s.world.takeCommands index).1) { s with world := (s.world.takeCommands index).2 } _
  by_cases hdriven : ∃ tracked : Tracked κ, s.world.driver.connections[index]? = some tracked ∧ tracked.conn.isSome = true
  · obtain ⟨tracked, htracked, hconn⟩ := hdriven
    obtain ⟨hcount, hresting, htaken⟩ := h.resting.takeCommands htracked hconn
    rw [hcount]
    have hqueue : (w₀.shareds tracked.shared).commands = [] ++ (w₀.shareds tracked.shared).commands := rfl
    refine (completes_runCommands hb hqueue (h.still hresting) htaken).mono ?_
    intro _ t ht
    refine ⟨ht.resting, ht.counted, ?_⟩
    rintro (hwoke | ⟨-, tracked₀, htracked₀, -, hcommands⟩)
    · exact ht.woke (.inl hwoke)
    · obtain ⟨tracked₁, htracked₁, hshared, -⟩ := h.resting.tracked index tracked htracked
      rw [htracked₀] at htracked₁
      obtain rfl := Option.some.inj htracked₁
      exact ht.woke (.inr (hshared ▸ hcommands))
  · have hnone : ∀ tracked : Tracked κ, s.world.driver.connections[index]? = some tracked → tracked.conn = none := by
      intro tracked htracked
      by_contra hconn
      exact hdriven ⟨tracked, htracked, Option.isSome_iff_ne_none.2 hconn⟩
    rw [takeCommands_idle hnone]
    apply completes_pure
    refine ⟨h.resting, h.counted, ?_⟩
    rintro (hwoke | ⟨hfull, tracked₀, htracked₀, hconn₀, -⟩)
    · exact h.woke hwoke
    · obtain ⟨tracked, htracked⟩ := Option.isSome_iff_exists.1 (h.resting.driven hfull index (by rw [htracked₀]; rfl))
      obtain ⟨tracked₁, htracked₁, -, hsame, -⟩ := h.resting.tracked index tracked htracked
      rw [htracked₀] at htracked₁
      obtain rfl := Option.some.inj htracked₁
      exact absurd ⟨tracked, htracked, hsame ▸ hconn₀⟩ hdriven

theorem completes_handleExpiry (h : Polling S w₀ queues full count woke s) (index : ℕ) :
    Completes (handleExpiry (κ := κ) index) s fun _ t => Polling S w₀ queues full count woke t := by
  have hexpiry := h.resting.handleExpiry hb index
  have hresting := h.resting.now hb
  apply completes_bind
  apply completes_perform
  have hanswer : (Atomic.apply (Op.handleExpiry index : Op κ Bool) s).1 = false := by
    show (s.world.handleExpiry index).1 = false
    rw [hexpiry]
  have hsettled : (Atomic.apply (Op.handleExpiry index : Op κ Bool) s).2 = { s with world := s.world.now.2 } := by
    show s.settle (.handleExpiry index : Op κ Bool) (s.world.handleExpiry index).2 = _
    rw [hexpiry]
    simp [Task.settle, noted_eq_false h.resting hresting]
  rw [hanswer, hsettled]
  exact completes_pure (h.still hresting)

theorem completes_serviceEach (h : Polling S w₀ (fun c => (w₀.shareds c).commands) full count woke s) (indices : List ℕ) :
    Completes (serviceEach (κ := κ) indices) s fun _ t =>
      Polling S w₀ (fun c => (w₀.shareds c).commands) full count
        (woke ∨ full ∧ ∃ index ∈ indices, HasCommandsAt w₀ index) t := by
  induction indices generalizing s woke with
  | nil =>
    apply completes_pure
    exact ⟨h.resting, h.counted, fun hwoke => h.woke (hwoke.resolve_right (by simp))⟩
  | cons index indices ih =>
    apply completes_bind
    apply completes_perform
    have hrouted : Polling S w₀ (fun c => (w₀.shareds c).commands) full count woke
        (Atomic.apply (Op.applyRoutes index : Op κ Unit) s).2 := h.still (h.resting.applyRoutes hb index)
    apply completes_bind
    refine (completes_applyCommands hb hrouted index).mono ?_
    intro _ t ht
    apply completes_bind
    refine (completes_handleExpiry hb ht index).mono ?_
    intro _ u hu
    refine (ih hu).mono ?_
    intro _ v hv
    refine ⟨hv.resting, hv.counted, ?_⟩
    rintro (hwoke | ⟨hfull, other, hmem, hcommands⟩)
    · exact hv.woke (.inl (.inl hwoke))
    · rcases List.mem_cons.1 hmem with rfl | hmem
      · exact hv.woke (.inl (.inr ⟨hfull, hcommands⟩))
      · exact hv.woke (.inr ⟨hfull, other, hmem, hcommands⟩)

theorem completes_flushOutbox (h : Polling S w₀ queues full count woke s) (fuel : ℕ) :
    Completes (flushOutbox (κ := κ) (fuel + 1)) s fun _ t => Polling S w₀ queues full count woke t := by
  obtain ⟨hanswer, hresting⟩ := h.resting.sendOutbox hb
  apply completes_bind
  apply completes_perform
  have hafter : Polling S w₀ queues full count woke (Atomic.apply (Op.sendOutbox : Op κ Disposition) s).2 := h.still hresting
  have hanswer : (Atomic.apply (Op.sendOutbox : Op κ Disposition) s).1 ∈ [Disposition.nothing, .refused] := hanswer
  simp only [List.mem_cons, List.not_mem_nil, or_false] at hanswer
  rcases hanswer with hanswer | hanswer
  · rw [hanswer]
    exact completes_pure hafter
  · rw [hanswer]
    exact completes_pure hafter

theorem completes_flushConnection (h : Polling S w₀ queues full count woke s) (index fuel : ℕ) :
    Completes (flushConnection (κ := κ) index (fuel + 1)) s fun _ t => Polling S w₀ queues full count woke t := by
  obtain ⟨hanswer, hresting⟩ := h.resting.sendNext hb index
  apply completes_bind
  apply completes_perform
  have hsettled : (Atomic.apply (Op.sendNext index : Op κ Disposition) s).2 =
      { s with world := (s.world.sendNext index).2 } := by
    show s.settle (.sendNext index : Op κ Disposition) (s.world.sendNext index).2 = _
    simp [Task.settle, noted_eq_false h.resting hresting]
  have hafter : Polling S w₀ queues full count woke (Atomic.apply (Op.sendNext index : Op κ Disposition) s).2 := by
    rw [hsettled]
    exact h.still hresting
  have hanswer : (Atomic.apply (Op.sendNext index : Op κ Disposition) s).1 ∈ [Disposition.nothing, .refused] := hanswer
  simp only [List.mem_cons, List.not_mem_nil, or_false] at hanswer
  rcases hanswer with hanswer | hanswer
  · rw [hanswer]
    exact completes_pure hafter
  · rw [hanswer]
    exact completes_pure hafter

theorem completes_flushEach (h : Polling S w₀ queues full count woke s) (fuel : ℕ) (indices : List ℕ) :
    Completes (flushEach (κ := κ) (fuel + 1) indices) s fun _ t => Polling S w₀ queues full count woke t := by
  induction indices generalizing s with
  | nil => exact completes_pure h
  | cons index indices ih =>
    apply completes_bind
    exact (completes_flushConnection hb h index fuel).mono fun _ t ht => ih ht

theorem completes_keys (h : Polling S w₀ queues full count woke s) :
    Completes (perform (.keys : Op κ (List ℕ)) : DriverM κ (List ℕ)) s fun order t =>
      order.Perm s.world.driver.connections.keys ∧ Polling S w₀ queues full count woke t := by
  obtain ⟨hperm, hresting⟩ := h.resting.keys hb
  exact completes_perform ⟨hperm, h.still hresting⟩

theorem completes_flush (h : Polling S w₀ queues full count woke s) (fuel : ℕ) :
    Completes (flush (κ := κ) (fuel + 1)) s fun _ t => Polling S w₀ queues full count woke t := by
  apply completes_bind
  refine (completes_flushOutbox hb h fuel).mono ?_
  intro _ t ht
  apply completes_bind
  refine (completes_keys hb ht).mono ?_
  rintro order u ⟨-, hu⟩
  exact completes_flushEach hb hu fuel order

omit hb in
theorem completes_findDead (h : Polling S w₀ queues full count woke s) (indices : List ℕ) :
    Completes (findDead (κ := κ) indices) s fun _ t => Polling S w₀ queues full count woke t := by
  induction indices with
  | nil => exact completes_pure h
  | cons index indices ih =>
    apply completes_bind
    apply completes_perform
    apply completes_bind
    exact ih.mono fun _ t ht => completes_pure ht

omit hb in
theorem completes_removeDead (h : Polling S w₀ queues False count woke s) (indices : List ℕ) :
    Completes (removeDead (κ := κ) indices) s fun _ t => Polling S w₀ queues False count woke t := by
  induction indices generalizing s with
  | nil => exact completes_pure h
  | cons index indices ih =>
    apply completes_bind
    apply completes_perform
    exact ih (h.still (h.resting.remove index))

theorem completes_evict (h : Polling S w₀ queues full count woke s) :
    Completes (evict (κ := κ)) s fun _ t => Polling S w₀ queues False count woke t := by
  apply completes_bind
  refine (completes_keys hb h).mono ?_
  rintro order t ⟨-, ht⟩
  apply completes_bind
  refine (completes_findDead ht order).mono ?_
  intro dead u hu
  exact completes_removeDead ⟨{ hu.resting with driven := False.elim }, hu.counted, hu.woke⟩ dead

theorem completes_service (h : Polling S w₀ (fun c => (w₀.shareds c).commands) full count woke s)
    (hfull : full ∨ (HasCommands w₀ → woke)) (fuel : ℕ) :
    Completes (service (κ := κ) (fuel + 1)) s fun _ t =>
      Polling S w₀ (fun c => (w₀.shareds c).commands) False count (HasCommands w₀) t := by
  apply completes_bind
  refine (completes_keys hb h).mono ?_
  rintro order t ⟨hperm, ht⟩
  apply completes_bind
  refine (completes_serviceEach hb ht order).mono ?_
  intro _ u hu
  have hserved : Polling S w₀ (fun c => (w₀.shareds c).commands) full count (HasCommands w₀) u := by
    refine ⟨hu.resting, hu.counted, ?_⟩
    intro hcommands
    rcases hfull with hfull | hwoke
    · obtain ⟨index, tracked, htracked, hrest⟩ := hcommands
      have hmem : index ∈ order := by
        rw [hperm.mem_iff, Std.TreeMap.mem_keys]
        exact Std.TreeMap.mem_iff_isSome_getElem?.2 (h.resting.driven hfull index (by rw [htracked]; rfl))
      exact hu.woke (.inr ⟨hfull, index, hmem, tracked, htracked, hrest⟩)
    · exact hu.woke (.inl (hwoke hcommands))
  apply completes_bind
  refine (completes_flush hb hserved fuel).mono ?_
  intro _ v hv
  exact completes_evict hb hv

theorem completes_readDatagrams (h : Polling S w₀ queues full count woke s) (n : ℕ) :
    Completes (readDatagrams (κ := κ) config n false) s fun read t =>
      read = false ∧ Polling S w₀ queues full count woke t := by
  cases n with
  | zero => exact completes_pure ⟨rfl, h⟩
  | succ n =>
    obtain ⟨hanswer, hresting⟩ := h.resting.pollRecv hb
    apply completes_bind
    apply completes_perform
    have hanswer : (Atomic.apply (Op.pollRecv : Op κ (Poll (Except Unit (Bytes × Address)))) s).1 = .pending := hanswer
    rw [hanswer]
    exact completes_pure ⟨rfl, h.still hresting⟩

theorem completes_rearm (h : Polling S w₀ queues full count woke s) :
    Completes (perform (.rearm : Op κ Bool) : DriverM κ Bool) s fun fired t =>
      fired = false ∧ Polling S w₀ queues full count woke t := by
  obtain ⟨hfired, hresting⟩ := h.resting.rearm hb
  have hserved : Resting S w₀ queues full (s.world.applyOp (.rearm : Op κ Bool)).2 := { hresting with }
  have hsettled : (Atomic.apply (Op.rearm : Op κ Bool) s).2 = { s with world := (s.world.applyOp .rearm).2 } := by
    show s.settle (.rearm : Op κ Bool) (s.world.applyOp .rearm).2 = _
    simp [Task.settle, h.resting.unread]
  apply completes_perform
  rw [hsettled]
  exact ⟨hfired, h.still hserved⟩

theorem completes_pass {n : ℕ}
    (h : Polling S w₀ (fun c => (w₀.shareds c).commands) full count woke
      { s with world := s.world.onProgress ({ · with woken := false }) })
    (hfull : full ∨ (HasCommands w₀ → woke))
    (hrest : ∀ t : Task κ σ π, Polling S w₀ (fun c => (w₀.shareds c).commands) False count (HasCommands w₀) t →
      Completes (passes (κ := κ) config (fuel + 1) n) t fun _ u =>
        Polling S w₀ (fun c => (w₀.shareds c).commands) False count (HasCommands w₀) u) :
    Completes (passes (κ := κ) config (fuel + 1) (n + 1)) s fun _ t =>
      Polling S w₀ (fun c => (w₀.shareds c).commands) False count (HasCommands w₀) t := by
  obtain ⟨hdials, hresting⟩ := h.resting.drainDials hb
  apply completes_bind
  apply completes_perform
  have hdials : (Atomic.apply (Op.drainDials : Op κ ℕ) s).1 = 0 := hdials
  rw [hdials]
  have hdrained : Polling S w₀ (fun c => (w₀.shareds c).commands) full count woke
      (Atomic.apply (Op.drainDials : Op κ ℕ) s).2 := ⟨hresting, h.counted, h.woke⟩
  apply completes_bind
  apply completes_pure
  apply completes_bind
  refine (completes_readDatagrams hb hdrained _).mono ?_
  rintro read t ⟨rfl, ht⟩
  apply completes_bind
  refine (completes_service hb ht hfull fuel).mono ?_
  intro _ u hu
  apply completes_bind
  refine (completes_rearm hb hu).mono ?_
  rintro fired v ⟨rfl, hv⟩
  apply completes_bind
  apply completes_perform
  have hv' : Polling S w₀ (fun c => (w₀.shareds c).commands) False count (HasCommands w₀)
      (Atomic.apply (Op.hasPending : Op κ Bool) v).2 := hv
  cases (Atomic.apply (Op.hasPending : Op κ Bool) v).1 with
  | false => exact completes_pure hv'
  | true => exact hrest _ hv'

theorem completes_passes (h : Polling S w₀ (fun c => (w₀.shareds c).commands) False count (HasCommands w₀) s) (n : ℕ) :
    Completes (passes (κ := κ) config (fuel + 1) n) s fun _ t =>
      Polling S w₀ (fun c => (w₀.shareds c).commands) False count (HasCommands w₀) t := by
  induction n generalizing s with
  | zero => exact completes_pure h
  | succ n ih =>
    refine completes_pass hb ⟨{ h.resting with unread := rfl }, h.counted, h.woke⟩ (.inr id) ?_
    intro t ht
    exact ih ht

end Programs

/-- A poll of a blocked endpoint returns and leaves all queues as they were. It wakes its own task, once, if and only
if the endpoint drives a connection that has commands. -/
theorem completes_poll (config : Config) (fuel : ℕ) (hb : BlockedIn S s.world) :
    Completes (poll (κ := κ) config (fuel + 1)) s fun _ t => Alike s.world t.world ∧
      ((HasCommands s.world ∧ t.woken = s.woken + 1) ∨ (¬HasCommands s.world ∧ t.woken = s.woken)) := by
  apply completes_bind
  apply completes_perform
  have hstart : Polling S s.world (fun c => (s.world.shareds c).commands) True s.woken False
      { (Atomic.apply (Op.await : Op κ Unit) s).2 with
        world := (Atomic.apply (Op.await : Op κ Unit) s).2.world.onProgress ({ · with woken := false }) } := by
    refine ⟨⟨rfl, fun _ => rfl, fun _ => rfl, rfl, ?_, fun _ _ h => h, hb.host, hb.socket, rfl, rfl⟩, .inl ⟨rfl, rfl⟩,
      False.elim⟩
    intro index tracked htracked
    exact ⟨tracked, htracked, rfl, rfl, rfl, hb.cores index tracked htracked⟩
  refine (completes_pass hb hstart (.inl trivial) fun t ht => completes_passes hb ht 7).mono ?_
  intro _ t ht
  refine ⟨ht.resting.alike, ?_⟩
  rcases ht.counted with ⟨hregistered, hcount⟩ | ⟨-, hcount, hcommands⟩
  · right
    refine ⟨?_, hcount⟩
    intro hcommands
    rw [ht.woke hcommands] at hregistered
    cases hregistered
  · exact .inl ⟨hcommands, hcount⟩

/-- A blocked endpoint comes to rest exactly if no connection that it drives has a command queued: a command that has to
wait is queued by the same `push` that handles call. -/
theorem rests_iff (config : Config) (fuel : ℕ) (s : Task κ σ π) (hb : Blocked s.world) :
    Rests config (fuel + 1) s ↔ ¬HasCommands s.world := by
  obtain ⟨S, hb⟩ := hb
  obtain ⟨_, t, hpoll, halike, hwoken⟩ := completes_poll config fuel hb
  constructor
  · rintro ⟨_, t', hpoll', -, hcount⟩ hcommands
    rw [hpoll] at hpoll'
    obtain ⟨rfl, rfl⟩ := Prod.mk.inj (Option.some.inj hpoll')
    rcases hwoken with ⟨-, hwoken⟩ | ⟨hnone, -⟩
    · omega
    · exact hnone hcommands
  · intro hnone
    rcases hwoken with ⟨hcommands, -⟩ | ⟨-, hwoken⟩
    · exact absurd hcommands hnone
    · exact ⟨_, t, hpoll, halike, hwoken⟩

/-! ## An endpoint whose peer allows no more streams -/

/-- A connection with these commands, on a host where nothing happens. -/
def streamless (commands : List Command) : QuicScriptedHost.ScriptedWorld where
  shareds _ := { commands }
  driver := {
    socket := {}
    platform := {}
    connections := ({} : Std.TreeMap ℕ (Tracked QuicScriptedHost.ScriptedConn)).insert 0
      { conn := some {}, shared := 0, remote := 0 } }

theorem connections_streamless {commands : List Command} {index : ℕ} {tracked : Tracked QuicScriptedHost.ScriptedConn} :
    (streamless commands).driver.connections[index]? = some tracked ↔
      index = 0 ∧ tracked = { conn := some {}, shared := 0, remote := 0 } := by
  simp only [streamless, Std.TreeMap.getElem?_insert, Std.compare_eq_iff_eq, Std.TreeMap.getElem?_emptyc]
  by_cases hindex : index = 0
  · simp [hindex, eq_comm]
  · simp [hindex, Ne.symm hindex]

theorem blocked_streamless {commands : List Command} (h : ∀ command ∈ commands, ∃ bidi, command = .openStream bidi) :
    Blocked (streamless commands) := by
  refine ⟨⟨1, fun _ conn => conn = {}, fun host => host = {}, fun socket => socket = {}, False⟩,
    ⟨?_, ?_, ?_, ?_, ?_, ?_, ?_, ?_⟩, rfl, ?_, ?_, ?_, rfl, rfl, .inr ⟨rfl, ?_⟩⟩
  · rintro c conn rfl command hcommand
    obtain ⟨bidi, rfl⟩ := h command hcommand
    cases bidi <;> exact ⟨⟨_, rfl, rfl⟩, rfl, rfl⟩
  · rintro c conn rfl now -
    exact ⟨.inl rfl, rfl, rfl⟩
  · rintro c conn rfl expiry ⟨⟩
  · rintro host rfl
    exact ⟨Nat.zero_lt_one, rfl⟩
  · rintro host keys rfl
    rfl
  · rintro host rfl expiry hexpiry
    refine ⟨?_, rfl⟩
    exact decide_eq_false (Nat.not_le.2 hexpiry)
  · rintro socket rfl
    exact ⟨rfl, rfl⟩
  · rintro ⟨⟩
  · intro index tracked htracked conn hconn
    obtain ⟨-, rfl⟩ := connections_streamless.1 htracked
    exact (Option.some.inj hconn).symm
  · intro index tracked _
    rfl
  · intro index index' tracked tracked' htracked htracked' _
    rw [(connections_streamless.1 htracked).1, (connections_streamless.1 htracked').1]
  · intro index tracked htracked
    obtain ⟨-, rfl⟩ := connections_streamless.1 htracked
    rfl

theorem rests_iff_streamless : Rests {} 1 ⟨streamless [], false, 0⟩ := by
  refine (rests_iff {} 0 ⟨streamless [], false, 0⟩ (blocked_streamless (by simp))).2 ?_
  rintro ⟨index, tracked, -, -, hcommands⟩
  exact hcommands rfl

/-- One stream that is asked for is enough. -/
theorem blocked_spins : ¬ ∀ (config : Config) (fuel : ℕ)
    (s : Task QuicScriptedHost.ScriptedConn QuicScriptedHost.ScriptedSocket QuicScriptedHost.ScriptedPlatform),
    Blocked s.world → Rests config (fuel + 1) s := by
  intro hall
  have hblocked : Blocked (streamless [.openStream true]) := blocked_streamless (by simp)
  obtain ⟨S, hb⟩ := hblocked
  obtain ⟨_, t, hpoll, -, hwoken⟩ := completes_poll (s := ⟨streamless [.openStream true], false, 0⟩) {} 0 hb
  obtain ⟨_, t', hpoll', -, hcount⟩ := hall {} 0 ⟨streamless [.openStream true], false, 0⟩ ⟨S, hb⟩
  rw [hpoll] at hpoll'
  obtain ⟨rfl, rfl⟩ := Prod.mk.inj (Option.some.inj hpoll')
  rcases hwoken with ⟨-, hwoken⟩ | ⟨hnone, -⟩
  · omega
  · exact hnone ⟨0, _, connections_streamless.2 ⟨rfl, rfl⟩, rfl, by simp [streamless]⟩

end Ngnet.QuicBlockedPolls
