import Mathlib.Data.List.Induction
import Mathlib.Data.List.Nodup
import Ngnet.ListUpdates

/-!
# The accept loop and its connections

`server.rs` of `ngnet-axum`: `run_with` from its first poll on, the tasks it spawns, and what becomes of both when
its future is dropped. The loop and the tasks run on any number of threads, and interleave step by step; only
between its awaits is the future of the server not dropped. A dropped connection future runs nothing of its own.

The identifiers of the connections count without end, and the registry keeps them in the order of registration.
Beside the fields of the source a server carries its connections, the peers it accepted and those it could not
serve, which connections were registered when the loop broke, and which of them it found when it read the registry.
-/

namespace Ngnet.AxumServer
open ListUpdates

variable {α : Type}

/-- What `catch_panics` makes of a connection that has ended. -/
inductive Outcome
  | finished
  | failed
  | panicked
  deriving DecidableEq, Repr

/-- Where the task of a connection stands. It holds its token until it is over. -/
inductive Task
  | unspawned
  | running
  | ended (outcome : Outcome)
  | removed (outcome : Outcome)
  | over (outcome : Outcome)
  | aborted
  deriving DecidableEq, Repr

namespace Task

/-- It has not removed its entry. -/
def registered : Task → Bool
  | .removed _ | .over _ => false
  | _ => true

def isOver : Task → Bool
  | .over _ | .aborted => true
  | _ => false

end Task

structure Conn (α : Type) where
  peer : α
  task : Task := .unspawned
  /-- How often it was asked to drain. -/
  drains : ℕ := 0
  /-- Whether its task was told to abort. -/
  aborting : Bool := false
  deriving DecidableEq, Repr

/-- What the observer is called with, and which connection it is about, if one was set up. -/
structure Report (α : Type) where
  id : Option ℕ
  peer : α
  panicked : Bool
  deriving DecidableEq, Repr

/-- Where `run_with` stands. -/
inductive Loop (α : Type)
  | selecting
  | accepted (peer : α)
  | serving (peer : α)
  | registered (id : ℕ)
  | spawned (id : ℕ)
  | refusing (peer : α)
  | stopping
  | unlistened
  | draining (ids : List ℕ)
  | waiting
  | resolved
  | dropped
  deriving DecidableEq, Repr

structure Server (α : Type) where
  loop : Loop α := .selecting
  nextId : ℕ := 0
  /-- The entries, and whether they hold an abort handle yet. -/
  registry : List (ℕ × Bool) := []
  stopped : Bool := false
  observer : Bool := true
  seen : List (Report α) := []
  conns : List (Conn α) := []
  accepted : List α := []
  refused : List α := []
  broke : List ℕ := []
  found : List ℕ := []
  deriving DecidableEq, Repr

namespace Server

def ids (server : Server α) : List ℕ := server.registry.map (·.1)

def report (server : Server α) (report : Report α) : Server α :=
  if server.observer then { server with seen := server.seen ++ [report] } else server

/-- The drop of `AbortLive`. -/
def abortLive (server : Server α) : Server α :=
  { server with
    loop := .dropped
    conns := server.conns.mapIdx fun id conn =>
      if (id, true) ∈ server.registry then { conn with aborting := true } else conn }

/-- A poll of the `select!`, which finds a connection or none. The stop signal has priority. -/
def poll (server : Server α) (connection : Option α) : Server α :=
  match server.loop with
  | .selecting =>
    if server.stopped then { server with loop := .stopping, broke := server.ids }
    else
      match connection with
      | some peer => { server with loop := .accepted peer, accepted := server.accepted ++ [peer] }
      | none => server
  | _ => server

/-- `serve` makes a connection, or cannot. -/
def serve (server : Server α) (ok : Bool) : Server α :=
  match server.loop with
  | .accepted peer =>
    if ok then { server with loop := .serving peer }
    else { server with loop := .refusing peer, refused := server.refused ++ [peer] }
  | _ => server

/-- The next step of the loop, or of what follows it. The callback may panic where it is called. -/
def advance (server : Server α) (panics : Bool) : Server α :=
  match server.loop with
  | .serving peer =>
    { server with
      loop := .registered server.nextId
      nextId := server.nextId + 1
      registry := server.registry ++ [(server.nextId, false)]
      conns := server.conns ++ [{ peer }] }
  | .registered id =>
    { server with
      loop := .spawned id
      conns := server.conns.modify id fun conn => { conn with task := .running } }
  | .spawned id =>
    { server with
      loop := .selecting
      registry := server.registry.map fun entry => if entry.1 = id then (id, true) else entry }
  | .refusing peer =>
    let told := server.report ⟨none, peer, false⟩
    if panics && server.observer then told.abortLive else { told with loop := .selecting }
  | .stopping => { server with loop := .unlistened }
  | .unlistened => { server with loop := .draining server.ids, found := server.ids }
  | .draining [] => { server with loop := .waiting }
  | .waiting => if server.conns.all (·.task.isOver) then { server with loop := .resolved } else server
  | _ => server

/-- One of the connections that were found is asked to drain. -/
def drain (server : Server α) (id : ℕ) : Server α :=
  match server.loop with
  | .draining ids =>
    if id ∈ ids then
      { server with
        loop := .draining (ids.filter (· ≠ id))
        conns := server.conns.modify id fun conn => { conn with drains := conn.drains + 1 } }
    else server
  | _ => server

/-- The future of the server is dropped where it is suspended. -/
def drop (server : Server α) : Server α :=
  match server.loop with
  | .selecting | .waiting => server.abortLive
  | _ => server

/-- The task of a connection moves on. -/
def setTask (server : Server α) (id : ℕ) (task : Task) : Server α :=
  { server with conns := server.conns.modify id fun conn => { conn with task } }

/-- A connection ends. -/
def finish (server : Server α) (id : ℕ) (outcome : Outcome) : Server α :=
  match server.conns[id]? with
  | some conn => if conn.task = .running then server.setTask id (.ended outcome) else server
  | none => server

/-- The next step of a task whose connection has ended: it removes its entry, and then reports. -/
def advanceTask (server : Server α) (id : ℕ) : Server α :=
  match server.conns[id]? with
  | some conn =>
    match conn.task with
    | .ended outcome =>
      { server.setTask id (.removed outcome) with registry := server.registry.filter (·.1 ≠ id) }
    | .removed .finished => server.setTask id (.over .finished)
    | .removed .failed => (server.report ⟨some id, conn.peer, false⟩).setTask id (.over .failed)
    | .removed .panicked => (server.report ⟨some id, conn.peer, true⟩).setTask id (.over .panicked)
    | _ => server
  | none => server

/-- A task that was told to abort is dropped where it is suspended. -/
def abortTask (server : Server α) (id : ℕ) : Server α :=
  match server.conns[id]? with
  | some conn => if conn.task = .running ∧ conn.aborting = true then server.setTask id .aborted else server
  | none => server

end Server

inductive Action (α : Type)
  | stop
  | poll (connection : Option α)
  | serve (ok : Bool)
  | advance (panics : Bool)
  | drain (id : ℕ)
  | drop
  | finish (id : ℕ) (outcome : Outcome)
  | advanceTask (id : ℕ)
  | abortTask (id : ℕ)
  deriving DecidableEq, Repr

def step (server : Server α) : Action α → Server α
  | .stop => { server with stopped := true }
  | .poll connection => server.poll connection
  | .serve ok => server.serve ok
  | .advance panics => server.advance panics
  | .drain id => server.drain id
  | .drop => server.drop
  | .finish id outcome => server.finish id outcome
  | .advanceTask id => server.advanceTask id
  | .abortTask id => server.abortTask id

/-- The server behind a run, with an observer or without one. -/
def reached (observer : Bool) (actions : List (Action α)) : Server α := actions.foldl step { observer }

theorem reached_append (observer : Bool) (actions more : List (Action α)) :
    reached observer (actions ++ more) = more.foldl step (reached observer actions) := by
  simp [reached]

/-! ## The invariant -/

/-- The reports of a task about its connection. -/
def Task.reports (id : ℕ) (peer : α) : Task → List (Report α)
  | .over .failed => [⟨some id, peer, false⟩]
  | .over .panicked => [⟨some id, peer, true⟩]
  | _ => []

namespace Loop

/-- The stop signal was observed, or the future of the server dropped. -/
def broken : Loop α → Bool
  | .stopping | .unlistened | .draining _ | .waiting | .resolved | .dropped => true
  | _ => false

/-- The registry was read. -/
def hasRead : Loop α → Bool
  | .draining _ | .waiting | .resolved => true
  | _ => false

/-- Those who are still to be asked to drain. -/
def left : Loop α → List ℕ
  | .draining ids => ids
  | _ => []

/-- The peer whose failed setup is still to be reported. -/
def owed : Loop α → List α
  | .refusing peer => [peer]
  | _ => []

end Loop

structure Sound (server : Server α) : Prop where
  next : server.nextId = server.conns.length
  nodup : server.ids.Nodup
  /-- The registry holds the connections whose tasks have not removed themselves. -/
  exact : ∀ id, id ∈ server.ids ↔ ∃ conn, server.conns[id]? = some conn ∧ conn.task.registered = true
  unspawned : ∀ id conn, server.conns[id]? = some conn → (conn.task = .unspawned ↔ server.loop = .registered id)
  backfilled : ∀ entry ∈ server.registry, entry.2 = true ∨ server.loop = .registered entry.1 ∨
    server.loop = .spawned entry.1
  asked : ∀ id conn, server.conns[id]? = some conn →
    conn.drains = if id ∈ server.found ∧ id ∉ server.loop.left then 1 else 0
  left : ∀ id ∈ server.loop.left, id ∈ server.found
  found : server.loop.hasRead = false → server.loop ≠ .dropped → server.found = []
  gone : server.loop.hasRead = true → ∀ id ∈ server.broke, id ∉ server.found →
    ∃ conn, server.conns[id]? = some conn ∧ conn.task.registered = false
  broke : ∀ id ∈ server.broke, id < server.conns.length
  reports : ∀ id conn, server.conns[id]? = some conn →
    server.seen.filter (·.id = some id) = if server.observer then conn.task.reports id conn.peer else []
  about : ∀ report ∈ server.seen, ∀ id, report.id = some id → id < server.conns.length
  refusals : (server.seen.filter (·.id = none)).map (·.peer) ++ (if server.observer then server.loop.owed else []) =
    if server.observer then server.refused else []
  resolved : server.loop = .resolved → ∀ conn ∈ server.conns, conn.task.isOver = true
  aborts : server.loop = .dropped → ∀ conn ∈ server.conns, conn.task = .running → conn.aborting = true
  calm : ∀ conn ∈ server.conns, conn.aborting = true ∨ conn.task = .aborted → server.loop = .dropped

namespace Loop

/-- Nothing is half set up, and nothing is being wound down. -/
def quiet : Loop α → Bool
  | .selecting | .accepted _ | .serving _ | .refusing _ | .stopping | .unlistened => true
  | _ => false

theorem of_quiet {loop : Loop α} (h : loop.quiet = true) : loop.hasRead = false ∧ loop.left = [] ∧ loop ≠ .dropped ∧
    loop ≠ .resolved ∧ ∀ id, loop ≠ .registered id ∧ loop ≠ .spawned id := by
  cases loop <;> simp_all [quiet, hasRead, left]

end Loop

section Steps
variable {server : Server α} {id : ℕ} {conn : Conn α} {loop : Loop α}

theorem Sound.filled (h : Sound server) (hquiet : server.loop.quiet = true) (entry : ℕ × Bool)
    (hentry : entry ∈ server.registry) : entry.2 = true := by
  obtain ⟨-, -, -, -, hsetup⟩ := Loop.of_quiet hquiet
  exact (h.backfilled entry hentry).resolve_right fun hor => hor.elim (hsetup _).1 (hsetup _).2

theorem Sound.goto (h : Sound server) (hquiet : server.loop.quiet = true) (hquiet' : loop.quiet = true) {stopped : Bool}
    {accepted refused : List α} {broke : List ℕ}
    (hbroke : ∀ id ∈ broke, id < server.conns.length)
    (hrefusals : (server.seen.filter (·.id = none)).map (·.peer) ++ (if server.observer then loop.owed else []) =
      if server.observer then refused else []) :
    Sound { server with loop, stopped, accepted, refused, broke } := by
  obtain ⟨hread, hleft, hdropped, hresolved, hsetup⟩ := Loop.of_quiet hquiet
  obtain ⟨hread', hleft', hdropped', hresolved', hsetup'⟩ := Loop.of_quiet hquiet'
  exact { h with
    unspawned := fun id conn hconn => by
      rw [h.unspawned id conn hconn]
      simp [(hsetup id).1, (hsetup' id).1]
    backfilled := fun entry hentry => .inl (h.filled hquiet entry hentry)
    asked := fun id conn hconn => by
      have := h.asked id conn hconn
      rw [hleft] at this
      simpa [hleft'] using this
    left := by simp [hleft']
    found := fun _ _ => h.found hread hdropped
    gone := by simp [hread']
    broke := hbroke
    refusals := hrefusals
    resolved := fun heq => absurd heq hresolved'
    aborts := fun heq => absurd heq hdropped'
    calm := fun conn hconn hcalm => absurd (h.calm conn hconn hcalm) hdropped }

theorem sound_poll (h : Sound server) (connection : Option α) : Sound (server.poll connection) := by
  have hrefusals := h.refusals
  simp only [Server.poll]
  split
  · rename_i hloop
    rw [hloop] at hrefusals
    have hquiet : server.loop.quiet = true := by rw [hloop]; rfl
    split
    · refine h.goto hquiet rfl (fun id hid => ?_) hrefusals
      obtain ⟨conn, hconn, -⟩ := (h.exact id).mp hid
      exact (List.getElem?_eq_some_iff.mp hconn).1
    · split
      · exact h.goto hquiet rfl h.broke hrefusals
      · exact h
  · exact h

theorem sound_serve (h : Sound server) (ok : Bool) : Sound (server.serve ok) := by
  have hrefusals := h.refusals
  simp only [Server.serve]
  split
  · rename_i peer hloop
    rw [hloop] at hrefusals
    have hquiet : server.loop.quiet = true := by rw [hloop]; rfl
    split
    · exact h.goto hquiet rfl h.broke hrefusals
    · refine h.goto hquiet rfl h.broke ?_
      cases hobserver : server.observer with
      | true => simpa [Loop.owed, hobserver] using hrefusals
      | false => simpa [Loop.owed, hobserver] using hrefusals
  · exact h

theorem sound_register (h : Sound server) {peer : α} (hloop : server.loop = .serving peer) :
    Sound { server with
      loop := .registered server.nextId
      nextId := server.nextId + 1
      registry := server.registry ++ [(server.nextId, false)]
      conns := server.conns ++ [{ peer }] } := by
  have hquiet : server.loop.quiet = true := by rw [hloop]; rfl
  obtain ⟨hread, hleft, hdropped, hresolved, hsetup⟩ := Loop.of_quiet hquiet
  have hfound := h.found hread hdropped
  have hnew : server.nextId ∉ server.ids := by
    intro hmem
    obtain ⟨conn, hconn, -⟩ := (h.exact _).mp hmem
    have := (List.getElem?_eq_some_iff.mp hconn).1
    rw [h.next] at this
    omega
  have hids : (server.registry ++ [(server.nextId, false)]).map (·.1) = server.ids ++ [server.nextId] := by
    simp [Server.ids]
  constructor
  case next => simp [h.next]
  case nodup =>
    rw [Server.ids, hids, List.nodup_append]
    exact ⟨h.nodup, by simp, fun a ha b hb heq => hnew (List.mem_singleton.mp hb ▸ heq ▸ ha)⟩
  case exact =>
    intro id
    rw [Server.ids, hids, List.mem_append, h.exact, List.mem_singleton]
    constructor
    · rintro (⟨conn, hconn, hregistered⟩ | rfl)
      · exact ⟨conn, by rw [List.getElem?_append_left (List.getElem?_eq_some_iff.mp hconn).1]; exact hconn, hregistered⟩
      · exact ⟨{ peer }, by simp [h.next], rfl⟩
    · rintro ⟨conn, hconn, hregistered⟩
      rcases getElem?_concat_some hconn with ⟨rfl, -⟩ | ⟨-, hconn⟩
      · exact .inr h.next.symm
      · exact .inl ⟨conn, hconn, hregistered⟩
  case unspawned =>
    intro id conn hconn
    rcases getElem?_concat_some hconn with ⟨rfl, rfl⟩ | ⟨hlt, hconn⟩
    · simp [h.next]
    · rw [h.unspawned id conn hconn, hloop]
      have hne : server.nextId ≠ id := by
        rw [h.next]
        omega
      simp [hne]
  case backfilled =>
    intro entry hentry
    rcases List.mem_append.mp hentry with hentry | hentry
    · exact .inl (h.filled hquiet entry hentry)
    · rw [List.mem_singleton.mp hentry]
      exact .inr (.inl rfl)
  case asked =>
    intro id conn hconn
    rcases getElem?_concat_some hconn with ⟨rfl, rfl⟩ | ⟨-, hconn⟩
    · simp [hfound]
    · simpa [hfound] using h.asked id conn hconn
  case left => nofun
  case found => exact fun _ _ => hfound
  case gone => nofun
  case broke =>
    intro id hid
    have := h.broke id hid
    rw [List.length_append]
    omega
  case reports =>
    intro id conn hconn
    rcases getElem?_concat_some hconn with ⟨rfl, rfl⟩ | ⟨-, hconn⟩
    · have hnone : server.seen.filter (·.id = some server.conns.length) = [] := by
        rw [List.filter_eq_nil_iff]
        intro report hreport hid
        have := h.about report hreport _ (by simpa using hid)
        omega
      simp [hnone, Task.reports]
    · exact h.reports id conn hconn
  case about =>
    intro report hreport id hid
    have := h.about report hreport id hid
    rw [List.length_append]
    omega
  case refusals =>
    have := h.refusals
    rw [hloop] at this
    exact this
  case resolved => nofun
  case aborts => nofun
  case calm =>
    intro conn hconn hcalm
    rcases List.mem_append.mp hconn with hconn | hconn
    · exact absurd (h.calm conn hconn hcalm) hdropped
    · rw [List.mem_singleton.mp hconn] at hcalm
      simp at hcalm

theorem Sound.moveTask (h : Sound server) (hconn : server.conns[id]? = some conn) {task : Task}
    {registry : List (ℕ × Bool)} {seen : List (Report α)} (hsub : registry.Sublist server.registry)
    (hids : ∀ other, other ∈ registry.map (·.1) ↔ other ∈ server.ids ∧ (other = id → task.registered = true))
    (hregistered : task.registered = true → conn.task.registered = true)
    (hold : conn.task ≠ .unspawned) (hnew : task ≠ .unspawned) (hover : conn.task.isOver = false)
    (hrunning : task ≠ .running) (haborted : task = .aborted → conn.aborting = true)
    (hseen : ∀ other ≠ some id, seen.filter (·.id = other) = server.seen.filter (·.id = other))
    (hreports : seen.filter (·.id = some id) = if server.observer then task.reports id conn.peer else []) :
    Sound { server.setTask id task with registry, seen } := by
  have hback : ∀ {j : ℕ} {other : Conn α}, (server.setTask id task).conns[j]? = some other →
      (j = id ∧ other = { conn with task }) ∨ j ≠ id ∧ server.conns[j]? = some other := by
    intro j other hother
    rcases getElem?_modify_some hother with ⟨rfl, conn', hconn', rfl⟩ | hkeep
    · rw [hconn] at hconn'
      cases hconn'
      exact .inl ⟨rfl, rfl⟩
    · exact .inr hkeep
  have hown : (server.setTask id task).conns[id]? = some { conn with task } := by simp [Server.setTask, hconn]
  have hforth : ∀ {j : ℕ}, j ≠ id → (server.setTask id task).conns[j]? = server.conns[j]? := by
    intro j hj
    simp [Server.setTask, Ne.symm hj]
  have hmem : ∀ {other : Conn α}, other ∈ (server.setTask id task).conns →
      other = { conn with task } ∨ other ∈ server.conns := by
    intro other hother
    obtain ⟨j, hj⟩ := List.mem_iff_getElem?.mp hother
    exact (hback hj).imp (·.2) fun hkeep => List.mem_of_getElem? hkeep.2
  have hlength : (server.setTask id task).conns.length = server.conns.length := by simp [Server.setTask]
  constructor
  case next => exact h.next.trans hlength.symm
  case nodup => exact (hsub.map _).nodup h.nodup
  case exact =>
    intro j
    show j ∈ registry.map (·.1) ↔ ∃ other, (server.setTask id task).conns[j]? = some other ∧ _
    rw [hids, h.exact]
    by_cases hj : j = id
    · subst hj
      rw [hown, hconn]
      simpa using hregistered
    · rw [hforth hj]
      simp [hj]
  case unspawned =>
    intro j other hother
    rcases hback hother with ⟨rfl, rfl⟩ | ⟨-, hkeep⟩
    · have := h.unspawned j conn hconn
      exact iff_of_false hnew fun hloop => hold (this.mpr hloop)
    · exact h.unspawned j other hkeep
  case backfilled => exact fun entry hentry => h.backfilled entry (hsub.subset hentry)
  case asked =>
    intro j other hother
    rcases hback hother with ⟨rfl, rfl⟩ | ⟨-, hkeep⟩
    · exact h.asked j conn hconn
    · exact h.asked j other hkeep
  case left => exact h.left
  case found => exact h.found
  case gone =>
    intro hread j hj hfound
    obtain ⟨other, hother, hgone⟩ := h.gone hread j hj hfound
    by_cases hid : j = id
    · subst hid
      rw [hconn] at hother
      cases hother
      exact ⟨_, hown, by simpa [hgone] using hregistered⟩
    · exact ⟨other, (hforth hid).trans hother, hgone⟩
  case broke => exact fun j hj => hlength.symm ▸ h.broke j hj
  case reports =>
    intro j other hother
    rcases hback hother with ⟨rfl, rfl⟩ | ⟨hj, hkeep⟩
    · exact hreports
    · exact (hseen _ (by simpa using hj)).trans (h.reports j other hkeep)
  case about =>
    intro report hreport j hj
    show j < (server.setTask id task).conns.length
    rw [hlength]
    by_cases hid : j = id
    · subst hid
      exact (List.getElem?_eq_some_iff.mp hconn).1
    · have hin : report ∈ server.seen.filter (·.id = some j) := by
        rw [← hseen _ (by simpa using hid)]
        simpa [hj] using hreport
      exact h.about report (List.mem_filter.mp hin).1 j hj
  case refusals =>
    have := h.refusals
    rw [← hseen none (by simp)] at this
    exact this
  case resolved =>
    intro hresolved
    have := h.resolved hresolved conn (List.mem_of_getElem? hconn)
    rw [hover] at this
    cases this
  case aborts =>
    intro hdropped other hother hrun
    rcases hmem hother with rfl | hother
    · exact absurd hrun hrunning
    · exact h.aborts hdropped other hother hrun
  case calm =>
    intro other hother hcalm
    rcases hmem hother with rfl | hother
    · refine h.calm conn (List.mem_of_getElem? hconn) (.inl ?_)
      exact hcalm.elim (fun haborting => haborting) haborted
    · exact h.calm other hother hcalm

theorem Sound.setTask (h : Sound server) (hconn : server.conns[id]? = some conn) {task : Task}
    (hregistered : task.registered = conn.task.registered) (hold : conn.task ≠ .unspawned) (hnew : task ≠ .unspawned)
    (hover : conn.task.isOver = false) (hrunning : task ≠ .running) (haborted : task = .aborted → conn.aborting = true)
    (hreports : task.reports id conn.peer = conn.task.reports id conn.peer) : Sound (server.setTask id task) := by
  refine h.moveTask hconn (List.Sublist.refl _) (fun other => ?_) (fun hreg => hregistered ▸ hreg) hold hnew hover
    hrunning haborted (fun _ _ => rfl) (hreports ▸ h.reports id conn hconn)
  constructor
  · intro hother
    refine ⟨hother, ?_⟩
    rintro rfl
    obtain ⟨conn', hconn', hreg⟩ := (h.exact other).mp hother
    rw [hconn] at hconn'
    cases hconn'
    exact hregistered.trans hreg
  · exact And.left

theorem sound_finish (h : Sound server) (id : ℕ) (outcome : Outcome) : Sound (server.finish id outcome) := by
  simp only [Server.finish]
  split
  · rename_i conn hconn
    split
    · rename_i hrunning
      apply h.setTask hconn <;> simp [hrunning, Task.registered, Task.isOver, Task.reports]
    · exact h
  · exact h

theorem sound_abortTask (h : Sound server) (id : ℕ) : Sound (server.abortTask id) := by
  simp only [Server.abortTask]
  split
  · rename_i conn hconn
    split
    · rename_i hand
      obtain ⟨hrunning, haborting⟩ := hand
      apply h.setTask hconn <;> simp [hrunning, haborting, Task.registered, Task.isOver, Task.reports]
    · exact h
  · exact h

theorem Sound.tellTask (h : Sound server) (hconn : server.conns[id]? = some conn) {outcome : Outcome} {panicked : Bool}
    (htask : conn.task = .removed outcome)
    (hreports : (Task.over outcome).reports id conn.peer = [⟨some id, conn.peer, panicked⟩]) :
    Sound ((server.report ⟨some id, conn.peer, panicked⟩).setTask id (.over outcome)) := by
  have hgone : id ∉ server.ids := by
    intro hmem
    obtain ⟨conn', hconn', hreg⟩ := (h.exact id).mp hmem
    rw [hconn] at hconn'
    cases hconn'
    rw [htask] at hreg
    cases hreg
  have hids : ∀ other, other ∈ server.registry.map (·.1) ↔
      other ∈ server.ids ∧ (other = id → (Task.over outcome).registered = true) := by
    intro other
    exact ⟨fun hother => ⟨hother, fun heq => absurd (heq ▸ hother) hgone⟩, And.left⟩
  have hold := h.reports id conn hconn
  simp only [htask, Task.reports, ite_self] at hold
  simp only [Server.report]
  split
  · rename_i hobserver
    refine h.moveTask hconn (List.Sublist.refl _) hids nofun (by simp [htask]) nofun (by simp [htask, Task.isOver]) nofun
      nofun (fun other hother => ?_) ?_
    · simp [hother.symm]
    · simp [hold, hobserver, hreports]
  · rename_i hobserver
    refine h.moveTask hconn (List.Sublist.refl _) hids nofun (by simp [htask]) nofun (by simp [htask, Task.isOver]) nofun
      nofun (fun _ _ => rfl) ?_
    simpa [hobserver] using hold

theorem sound_advanceTask (h : Sound server) (id : ℕ) : Sound (server.advanceTask id) := by
  simp only [Server.advanceTask]
  split
  · rename_i conn hconn
    split
    · rename_i outcome htask
      have hold : server.seen.filter (·.id = some id) =
          if server.observer then (Task.removed outcome).reports id conn.peer else [] := by
        rw [h.reports id conn hconn, htask]
        rfl
      refine h.moveTask hconn List.filter_sublist (fun other => ?_) nofun (by simp [htask]) nofun
        (by simp [htask, Task.isOver]) nofun nofun (fun _ _ => rfl) hold
      simp [Server.ids, Task.registered]
    · rename_i htask
      apply h.setTask hconn <;> simp [htask, Task.registered, Task.isOver, Task.reports]
    · rename_i htask
      exact h.tellTask hconn htask rfl
    · rename_i htask
      exact h.tellTask hconn htask rfl
    · exact h
  · exact h

theorem sound_spawn (h : Sound server) (hloop : server.loop = .registered id) :
    Sound { server with
      loop := .spawned id
      conns := server.conns.modify id fun conn => { conn with task := .running } } := by
  have hback : ∀ {j : ℕ} {conn : Conn α},
      (server.conns.modify id fun conn => { conn with task := .running })[j]? = some conn →
      ∃ old, server.conns[j]? = some old ∧ (old.task = .unspawned ↔ j = id) ∧
        conn = { old with task := if j = id then .running else old.task } := by
    intro j conn hconn
    rcases getElem?_modify_some hconn with ⟨rfl, old, hold, rfl⟩ | ⟨hj, hold⟩
    · have := h.unspawned j old hold
      rw [hloop] at this
      exact ⟨old, hold, by simpa using this, by simp⟩
    · have := h.unspawned j conn hold
      rw [hloop] at this
      exact ⟨conn, hold, by simpa [hj, Ne.symm hj] using this, by simp [hj]⟩
  have hdropped : server.loop ≠ .dropped := by simp [hloop]
  have hfound := h.found (by rw [hloop]; rfl) hdropped
  constructor
  case next => simpa using h.next
  case nodup => exact h.nodup
  case exact =>
    intro j
    show j ∈ server.ids ↔ _
    rw [h.exact]
    by_cases hj : id = j
    · subst hj
      cases hconn : server.conns[id]? with
      | none => simp [hconn]
      | some conn =>
        have := (h.unspawned id conn hconn).mpr hloop
        simp [hconn, this, Task.registered]
    · simp [hj]
  case unspawned =>
    intro j conn hconn
    obtain ⟨old, -, hiff, rfl⟩ := hback hconn
    by_cases hj : j = id <;> simp_all
  case backfilled =>
    intro entry hentry
    rcases h.backfilled entry hentry with hfilled | hother | hother
    · exact .inl hfilled
    · rw [hloop] at hother
      cases hother
      exact .inr (.inr rfl)
    · rw [hloop] at hother
      cases hother
  case asked =>
    intro j conn hconn
    obtain ⟨old, hold, -, rfl⟩ := hback hconn
    simpa [hfound] using h.asked j old hold
  case left => nofun
  case found => exact fun _ _ => hfound
  case gone => nofun
  case broke => simpa using h.broke
  case reports =>
    intro j conn hconn
    obtain ⟨old, hold, hiff, rfl⟩ := hback hconn
    have := h.reports j old hold
    by_cases hj : j = id
    · rw [hiff.mpr hj] at this
      simpa [hj, Task.reports] using this
    · simpa [hj] using this
  case about => simpa using h.about
  case refusals =>
    have := h.refusals
    rw [hloop] at this
    exact this
  case resolved => nofun
  case aborts => nofun
  case calm =>
    intro conn hconn hcalm
    obtain ⟨j, hj⟩ := List.mem_iff_getElem?.mp hconn
    obtain ⟨old, hold, -, rfl⟩ := hback hj
    refine absurd (h.calm old (List.mem_of_getElem? hold) ?_) hdropped
    by_cases heq : j = id
    · simpa [heq] using Or.inl hcalm
    · simpa [heq] using hcalm

theorem sound_backfill (h : Sound server) (hloop : server.loop = .spawned id) :
    Sound { server with
      loop := .selecting
      registry := server.registry.map fun entry => if entry.1 = id then (id, true) else entry } := by
  have hids : (server.registry.map fun entry => if entry.1 = id then (id, true) else entry).map (·.1) = server.ids := by
    rw [Server.ids, List.map_map]
    refine List.map_congr_left fun entry _ => ?_
    by_cases heq : entry.1 = id <;> simp [heq]
  have hdropped : server.loop ≠ .dropped := by simp [hloop]
  have hfound := h.found (by rw [hloop]; rfl) hdropped
  refine { h with
    nodup := by rw [Server.ids, hids]; exact h.nodup
    exact := fun j => by rw [Server.ids, hids]; exact h.exact j
    unspawned := fun j conn hconn => by
      have := h.unspawned j conn hconn
      rw [hloop] at this
      simpa using this
    backfilled := fun entry hentry => ?_
    asked := fun j conn hconn => by simpa [hfound] using h.asked j conn hconn
    left := nofun
    found := fun _ _ => hfound
    gone := nofun
    refusals := ?_
    resolved := nofun
    aborts := nofun
    calm := fun conn hconn hcalm => absurd (h.calm conn hconn hcalm) hdropped }
  · obtain ⟨old, hold, rfl⟩ := List.mem_map.mp hentry
    by_cases heq : old.1 = id
    · simp [heq]
    · rcases h.backfilled old hold with hfilled | hother | hother
      · simp [heq, hfilled]
      · rw [hloop] at hother
        cases hother
      · rw [hloop] at hother
        cases hother
        exact absurd rfl heq
  · have := h.refusals
    rw [hloop] at this
    exact this

theorem sound_refused (h : Sound server) {peer : α} (hloop : server.loop = .refusing peer) :
    Sound { server.report ⟨none, peer, false⟩ with loop := .selecting } := by
  have hquiet : server.loop.quiet = true := by rw [hloop]; rfl
  have hrefusals := h.refusals
  rw [hloop] at hrefusals
  simp only [Server.report]
  split
  · rename_i hobserver
    simp only [hobserver, if_true] at hrefusals
    have hnamed : ∀ id : ℕ, (server.seen ++ [(⟨none, peer, false⟩ : Report α)]).filter (·.id = some id) =
        server.seen.filter (·.id = some id) := by
      intro id
      simp
    obtain ⟨hread, hleft, hdropped, -, hsetup⟩ := Loop.of_quiet hquiet
    exact { h with
      unspawned := fun id conn hconn => by
        rw [h.unspawned id conn hconn, hloop]
        simp
      backfilled := fun entry hentry => .inl (h.filled hquiet entry hentry)
      asked := fun id conn hconn => by
        have := h.asked id conn hconn
        rw [hleft] at this
        exact this
      left := nofun
      found := fun _ _ => h.found hread hdropped
      gone := nofun
      reports := fun id conn hconn => (hnamed id).trans (h.reports id conn hconn)
      about := fun report hreport id hid => by
        have hin : report ∈ server.seen.filter (·.id = some id) := by
          rw [← hnamed id]
          exact List.mem_filter.mpr ⟨hreport, by simpa using hid⟩
        exact h.about report (List.mem_filter.mp hin).1 id hid
      refusals := by simpa [hobserver, Loop.owed] using hrefusals
      resolved := nofun
      aborts := nofun
      calm := fun conn hconn hcalm => absurd (h.calm conn hconn hcalm) hdropped }
  · rename_i hobserver
    refine h.goto hquiet rfl h.broke ?_
    simpa [hobserver] using hrefusals

theorem sound_abortLive (h : Sound server) (hleft : server.loop.left = []) (howed : server.loop.owed = [])
    (hsetup : ∀ id, server.loop ≠ .registered id ∧ server.loop ≠ .spawned id) : Sound server.abortLive := by
  have hback : ∀ {j : ℕ} {conn : Conn α}, server.abortLive.conns[j]? = some conn →
      ∃ old, server.conns[j]? = some old ∧
        conn = if (j, true) ∈ server.registry then { old with aborting := true } else old := by
    intro j conn hconn
    simp only [Server.abortLive, List.getElem?_mapIdx, Option.map_eq_some_iff] at hconn
    obtain ⟨old, hold, rfl⟩ := hconn
    exact ⟨old, hold, rfl⟩
  have htask : ∀ {j : ℕ} {conn : Conn α}, server.abortLive.conns[j]? = some conn →
      ∃ old, server.conns[j]? = some old ∧ conn.task = old.task ∧ conn.peer = old.peer ∧ conn.drains = old.drains := by
    intro j conn hconn
    obtain ⟨old, hold, rfl⟩ := hback hconn
    refine ⟨old, hold, ?_⟩
    split <;> simp
  have hforth : ∀ {j : ℕ} {old : Conn α}, server.conns[j]? = some old →
      ∃ conn, server.abortLive.conns[j]? = some conn ∧ conn.task = old.task := by
    intro j old hold
    simp only [Server.abortLive, List.getElem?_mapIdx, hold, Option.map_some, Option.some.injEq, exists_eq_left']
    split <;> simp
  constructor
  case next => simpa [Server.abortLive] using h.next
  case nodup => exact h.nodup
  case exact =>
    intro j
    show j ∈ server.ids ↔ _
    rw [h.exact]
    constructor
    · rintro ⟨old, hold, hreg⟩
      obtain ⟨conn, hconn, hsame⟩ := hforth hold
      exact ⟨conn, hconn, hsame ▸ hreg⟩
    · rintro ⟨conn, hconn, hreg⟩
      obtain ⟨old, hold, hsame, -⟩ := htask hconn
      exact ⟨old, hold, hsame ▸ hreg⟩
  case unspawned =>
    intro j conn hconn
    obtain ⟨old, hold, hsame, -⟩ := htask hconn
    rw [hsame, h.unspawned j old hold]
    exact iff_of_false (hsetup j).1 nofun
  case backfilled =>
    intro entry hentry
    exact .inl ((h.backfilled entry hentry).resolve_right fun hor => hor.elim (hsetup _).1 (hsetup _).2)
  case asked =>
    intro j conn hconn
    obtain ⟨old, hold, -, -, hdrains⟩ := htask hconn
    have := h.asked j old hold
    rw [hleft] at this
    exact hdrains.trans this
  case left => nofun
  case found => exact fun _ hdropped => absurd rfl hdropped
  case gone => nofun
  case broke => simpa [Server.abortLive] using h.broke
  case reports =>
    intro j conn hconn
    obtain ⟨old, hold, hsame, hpeer, -⟩ := htask hconn
    rw [hsame, hpeer]
    exact h.reports j old hold
  case about =>
    intro report hreport j hj
    have := h.about report hreport j hj
    simpa [Server.abortLive] using this
  case refusals =>
    have := h.refusals
    rw [howed] at this
    exact this
  case resolved => nofun
  case aborts =>
    intro _ conn hconn hrunning
    obtain ⟨j, hj⟩ := List.mem_iff_getElem?.mp hconn
    obtain ⟨old, hold, rfl⟩ := hback hj
    by_cases hentry : (j, true) ∈ server.registry
    · simp [hentry]
    · rw [if_neg hentry] at hrunning
      have hin : j ∈ server.ids := (h.exact j).mpr ⟨old, hold, by rw [hrunning]; rfl⟩
      obtain ⟨entry, hmem, rfl⟩ := List.mem_map.mp hin
      have hfilled := (h.backfilled entry hmem).resolve_right fun hor => hor.elim (hsetup _).1 (hsetup _).2
      rw [← hfilled] at hentry
      exact absurd hmem hentry
  case calm => exact fun _ _ _ => rfl

theorem sound_read (h : Sound server) (hloop : server.loop = .unlistened) :
    Sound { server with loop := .draining server.ids, found := server.ids } := by
  have hquiet : server.loop.quiet = true := by rw [hloop]; rfl
  obtain ⟨hread, hleft, hdropped, -, hsetup⟩ := Loop.of_quiet hquiet
  have hfound := h.found hread hdropped
  have hrefusals := h.refusals
  rw [hloop] at hrefusals
  exact { h with
    unspawned := fun id conn hconn => by
      rw [h.unspawned id conn hconn, hloop]
      simp
    backfilled := fun entry hentry => .inl (h.filled hquiet entry hentry)
    asked := fun id conn hconn => by
      have := h.asked id conn hconn
      rw [hfound] at this
      simpa [Loop.left] using this
    left := fun _ hid => hid
    found := nofun
    gone := fun _ id hid hnot => by
      have hlt := h.broke id hid
      refine ⟨server.conns[id], List.getElem?_eq_getElem hlt, ?_⟩
      have := mt (h.exact id).mpr hnot
      simpa [List.getElem?_eq_getElem hlt] using this
    refusals := hrefusals
    resolved := nofun
    aborts := nofun
    calm := fun conn hconn hcalm => absurd (h.calm conn hconn hcalm) hdropped }

theorem Sound.windUp (h : Sound server) (hread : server.loop.hasRead = true) (hread' : loop.hasRead = true)
    (hleft : loop.left = server.loop.left)
    (hresolved : loop = .resolved → ∀ conn ∈ server.conns, conn.task.isOver = true) : Sound { server with loop } := by
  have hrefusals := h.refusals
  have howed : server.loop.owed = [] := by
    cases hloop : server.loop <;> simp_all [Loop.hasRead, Loop.owed]
  have howed' : loop.owed = [] := by
    cases loop <;> simp_all [Loop.hasRead, Loop.owed]
  have hsetup : ∀ id, server.loop ≠ .registered id ∧ server.loop ≠ .spawned id := by
    intro id
    cases hloop : server.loop <;> simp_all [Loop.hasRead]
  exact { h with
    unspawned := fun id conn hconn => by
      refine (h.unspawned id conn hconn).trans (iff_of_false (hsetup id).1 ?_)
      rintro rfl
      cases hread'
    backfilled := fun entry hentry =>
      .inl ((h.backfilled entry hentry).resolve_right fun hor => hor.elim (hsetup _).1 (hsetup _).2)
    asked := fun id conn hconn => by
      show conn.drains = if id ∈ server.found ∧ id ∉ loop.left then 1 else 0
      rw [hleft]
      exact h.asked id conn hconn
    left := fun id hid => h.left id (hleft ▸ hid)
    found := fun hnot => by
      rw [hread'] at hnot
      cases hnot
    gone := fun _ => h.gone hread
    refusals := by
      show _ ++ (if server.observer then loop.owed else []) = _
      rw [howed']
      rw [howed] at hrefusals
      exact hrefusals
    resolved := hresolved
    aborts := by
      rintro rfl
      cases hread'
    calm := fun conn hconn hcalm => by
      have hdropped := h.calm conn hconn hcalm
      rw [hdropped] at hread
      cases hread }

theorem sound_advance (h : Sound server) (panics : Bool) : Sound (server.advance panics) := by
  simp only [Server.advance]
  split
  · rename_i peer hloop
    exact sound_register h hloop
  · rename_i id hloop
    exact sound_spawn h hloop
  · rename_i id hloop
    exact sound_backfill h hloop
  · rename_i peer hloop
    have hrefused := sound_refused h hloop
    split
    · have haborted : Sound ({ server.report ⟨none, peer, false⟩ with loop := .selecting } : Server α).abortLive := by
        apply sound_abortLive hrefused <;> simp [Loop.left, Loop.owed]
      exact haborted
    · exact hrefused
  · rename_i hloop
    have hrefusals := h.refusals
    rw [hloop] at hrefusals
    exact h.goto (by rw [hloop]; rfl) rfl h.broke hrefusals
  · rename_i hloop
    exact sound_read h hloop
  · rename_i hloop
    exact h.windUp (by rw [hloop]; rfl) rfl (by rw [hloop]; rfl) nofun
  · rename_i hloop
    split
    · rename_i hall
      exact h.windUp (by rw [hloop]; rfl) rfl (by rw [hloop]; rfl) fun _ => by simpa using hall
    · exact h
  · exact h

theorem sound_drain (h : Sound server) (id : ℕ) : Sound (server.drain id) := by
  simp only [Server.drain]
  split
  · rename_i ids hloop
    split
    · rename_i hid
      have hback : ∀ {j : ℕ} {conn : Conn α},
          (server.conns.modify id fun conn => { conn with drains := conn.drains + 1 })[j]? = some conn →
          ∃ old, server.conns[j]? = some old ∧
            conn = { old with drains := if j = id then old.drains + 1 else old.drains } := by
        intro j conn hconn
        rcases getElem?_modify_some hconn with ⟨rfl, old, hold, rfl⟩ | ⟨hj, hold⟩
        · exact ⟨old, hold, by simp⟩
        · exact ⟨conn, hold, by simp [hj]⟩
      have hforth : ∀ {j : ℕ} {old : Conn α}, server.conns[j]? = some old →
          ∃ conn : Conn α, (server.conns.modify id fun conn => { conn with drains := conn.drains + 1 })[j]? = some conn ∧
            conn.task = old.task := by
        intro j old hold
        by_cases hj : id = j <;> simp [hj, hold]
      have hread : server.loop.hasRead = true := by rw [hloop]; rfl
      have hin : id ∈ server.found := h.left id (by rw [hloop]; exact hid)
      have hasked := h.asked
      rw [hloop] at hasked
      constructor
      case next => simpa using h.next
      case nodup => exact h.nodup
      case exact =>
        intro j
        show j ∈ server.ids ↔ _
        rw [h.exact]
        constructor
        · rintro ⟨old, hold, hreg⟩
          obtain ⟨conn, hconn, hsame⟩ := hforth hold
          exact ⟨conn, hconn, hsame ▸ hreg⟩
        · rintro ⟨conn, hconn, hreg⟩
          obtain ⟨old, hold, rfl⟩ := hback hconn
          exact ⟨old, hold, hreg⟩
      case unspawned =>
        intro j conn hconn
        obtain ⟨old, hold, rfl⟩ := hback hconn
        have := h.unspawned j old hold
        rw [hloop] at this
        exact this.trans (iff_of_false nofun nofun)
      case backfilled =>
        intro entry hentry
        refine .inl ((h.backfilled entry hentry).resolve_right ?_)
        rw [hloop]
        rintro (hother | hother)
        · cases hother
        · cases hother
      case asked =>
        intro j conn hconn
        obtain ⟨old, hold, rfl⟩ := hback hconn
        have := hasked j old hold
        by_cases hj : j = id
        · subst hj
          simp [Loop.left, hid] at this
          simp [Loop.left, hin, this]
        · show (if j = id then old.drains + 1 else old.drains) = _
          rw [if_neg hj, this]
          exact if_congr (by simp [Loop.left, hj]) rfl rfl
      case left =>
        intro j hj
        exact h.left j (by rw [hloop]; exact (List.mem_filter.mp hj).1)
      case found => nofun
      case gone =>
        intro _ j hj hfound
        obtain ⟨old, hold, hgone⟩ := h.gone hread j hj hfound
        obtain ⟨conn, hconn, hsame⟩ := hforth hold
        exact ⟨conn, hconn, hsame ▸ hgone⟩
      case broke => simpa using h.broke
      case reports =>
        intro j conn hconn
        obtain ⟨old, hold, rfl⟩ := hback hconn
        exact h.reports j old hold
      case about => simpa using h.about
      case refusals =>
        have := h.refusals
        rw [hloop] at this
        exact this
      case resolved => nofun
      case aborts => nofun
      case calm =>
        intro conn hconn hcalm
        obtain ⟨j, hj⟩ := List.mem_iff_getElem?.mp hconn
        obtain ⟨old, hold, rfl⟩ := hback hj
        have := h.calm old (List.mem_of_getElem? hold) hcalm
        rw [hloop] at this
        cases this
    · exact h
  · exact h

theorem sound_drop (h : Sound server) : Sound server.drop := by
  simp only [Server.drop]
  split
  · rename_i hloop
    exact sound_abortLive h (by rw [hloop]; rfl) (by rw [hloop]; rfl) (by simp [hloop])
  · rename_i hloop
    exact sound_abortLive h (by rw [hloop]; rfl) (by rw [hloop]; rfl) (by simp [hloop])
  · exact h

theorem sound_step (h : Sound server) (action : Action α) : Sound (step server action) := by
  cases action with
  | stop => exact { h with }
  | poll connection => exact sound_poll h connection
  | serve ok => exact sound_serve h ok
  | advance panics => exact sound_advance h panics
  | drain id => exact sound_drain h id
  | drop => exact sound_drop h
  | finish id outcome => exact sound_finish h id outcome
  | advanceTask id => exact sound_advanceTask h id
  | abortTask id => exact sound_abortTask h id

end Steps

theorem sound_init (observer : Bool) : Sound ({ observer } : Server α) := by
  constructor <;> simp [Server.ids, Loop.left, Loop.owed, Loop.hasRead]

theorem sound_reached (observer : Bool) (actions : List (Action α)) : Sound (reached observer actions) := by
  induction actions using List.reverseRecOn with
  | nil => exact sound_init observer
  | append_singleton actions action ih =>
    rw [reached_append]
    exact sound_step ih action

/-! ## What was accepted -/

/-- The peer that is accepted and not yet served. -/
def Loop.pending : Loop α → List α
  | .accepted peer | .serving peer => [peer]
  | _ => []

namespace Server

def peers (server : Server α) : List α := server.conns.map (·.peer)

/-- The connections that were accepted: those with a task, those that could not be served, and the one in hand. -/
def known (server : Server α) : List α := server.peers ++ server.refused ++ server.loop.pending

/-- Nothing is accepted any more. -/
def shut (server : Server α) : Bool := server.stopped || server.loop.broken

@[simp] theorem report_loop (server : Server α) (report : Report α) : (server.report report).loop = server.loop := by
  simp only [Server.report]
  split <;> rfl

end Server

section Accepting
variable {server next : Server α}

/-- A step that accepts nothing. -/
structure Server.Keeps (server next : Server α) : Prop where
  known : next.known.Perm server.known
  accepted : next.accepted = server.accepted
  shut : server.shut = true → next.shut = true
  observer : next.observer = server.observer

theorem Server.Keeps.refl (server : Server α) : server.Keeps server := ⟨.refl _, rfl, fun hshut => hshut, rfl⟩

theorem keeps_loop {loop : Loop α} (hpending : loop.pending = server.loop.pending)
    (hbroken : server.loop.broken = true → loop.broken = true) : server.Keeps { server with loop } := by
  constructor
  · simp [Server.known, Server.peers, hpending]
  · rfl
  · simp only [Server.shut, Bool.or_eq_true]
    exact Or.imp_right hbroken
  · rfl

theorem keeps_modify (server : Server α) (id : ℕ) {f : Conn α → Conn α} (hf : ∀ conn, (f conn).peer = conn.peer) :
    server.Keeps { server with conns := server.conns.modify id f } := by
  constructor
  · simp only [Server.known, Server.peers, map_modify_of_eq hf]
    exact .refl _
  · rfl
  · exact fun hshut => hshut
  · rfl

theorem keeps_abortLive (h : server.loop.pending = []) : server.Keeps server.abortLive := by
  have hpeers : server.abortLive.peers = server.peers := by
    refine List.ext_getElem? fun id => ?_
    simp only [Server.peers, Server.abortLive, List.getElem?_map, List.getElem?_mapIdx, Option.map_map]
    congr 1
    funext conn
    simp only [Function.comp_apply]
    split <;> rfl
  constructor
  · simp only [Server.known, hpeers, h]
    exact .refl _
  · rfl
  · simp [Server.shut, Server.abortLive, Loop.broken]
  · rfl

theorem Server.Keeps.trans {last : Server α} (h : server.Keeps next) (h' : next.Keeps last) : server.Keeps last :=
  ⟨h'.known.trans h.known, h'.accepted.trans h.accepted, fun hshut => h'.shut (h.shut hshut),
    h'.observer.trans h.observer⟩

theorem keeps_report (server : Server α) (report : Report α) : server.Keeps (server.report report) := by
  simp only [Server.report]
  split
  · exact ⟨.refl _, rfl, fun hshut => hshut, rfl⟩
  · exact .refl server

theorem keeps_serve (server : Server α) (ok : Bool) : server.Keeps (server.serve ok) := by
  simp only [Server.serve]
  split
  · rename_i peer hloop
    split
    · exact keeps_loop (by rw [hloop]; rfl) (by simp [hloop, Loop.broken])
    · constructor
      · simp [Server.known, Server.peers, hloop, Loop.pending]
      · rfl
      · simp [Server.shut, hloop, Loop.broken]
      · rfl
  · exact .refl server

theorem keeps_advance (server : Server α) (panics : Bool) : server.Keeps (server.advance panics) := by
  simp only [Server.advance]
  split
  · rename_i peer hloop
    constructor
    · simp only [Server.known, Server.peers, hloop, Loop.pending, List.map_append, List.append_nil, List.append_assoc]
      exact (List.perm_append_singleton peer server.refused).symm.append_left _
    · rfl
    · simp [Server.shut, hloop, Loop.broken]
    · rfl
  · rename_i id hloop
    have hgoto : server.Keeps { server with loop := .spawned id } :=
      keeps_loop (by rw [hloop]; rfl) (by simp [hloop, Loop.broken])
    exact hgoto.trans (keeps_modify _ id fun _ => rfl)
  · rename_i id hloop
    have hgoto : server.Keeps { server with loop := .selecting } :=
      keeps_loop (by rw [hloop]; rfl) (by simp [hloop, Loop.broken])
    exact ⟨hgoto.known, rfl, hgoto.shut, rfl⟩
  · rename_i peer hloop
    have htold := keeps_report server ⟨none, peer, false⟩
    have hpending : (server.report ⟨none, peer, false⟩).loop.pending = [] := by
      rw [Server.report_loop, hloop]
      rfl
    split
    · exact htold.trans (keeps_abortLive hpending)
    · exact htold.trans (keeps_loop hpending.symm (by simp [hloop, Loop.broken]))
  · rename_i hloop
    exact keeps_loop (by rw [hloop]; rfl) fun _ => rfl
  · rename_i hloop
    have hgoto : server.Keeps { server with loop := .draining server.ids } :=
      keeps_loop (by rw [hloop]; rfl) fun _ => rfl
    exact ⟨hgoto.known, rfl, hgoto.shut, rfl⟩
  · rename_i hloop
    exact keeps_loop (by rw [hloop]; rfl) fun _ => rfl
  · rename_i hloop
    split
    · exact keeps_loop (by rw [hloop]; rfl) fun _ => rfl
    · exact .refl server
  · exact .refl server

theorem keeps_drain (server : Server α) (id : ℕ) : server.Keeps (server.drain id) := by
  simp only [Server.drain]
  split
  · rename_i ids hloop
    split
    · have hgoto : server.Keeps { server with loop := .draining (ids.filter (· ≠ id)) } :=
        keeps_loop (by rw [hloop]; rfl) fun _ => rfl
      exact hgoto.trans (keeps_modify _ id fun _ => rfl)
    · exact .refl server
  · exact .refl server

theorem keeps_drop (server : Server α) : server.Keeps server.drop := by
  simp only [Server.drop]
  split
  · rename_i hloop
    exact keeps_abortLive (by rw [hloop]; rfl)
  · rename_i hloop
    exact keeps_abortLive (by rw [hloop]; rfl)
  · exact .refl server

theorem keeps_setTask (server : Server α) (id : ℕ) (task : Task) : server.Keeps (server.setTask id task) :=
  keeps_modify server id fun _ => rfl

theorem keeps_finish (server : Server α) (id : ℕ) (outcome : Outcome) : server.Keeps (server.finish id outcome) := by
  simp only [Server.finish]
  split
  · split
    · exact keeps_setTask server id _
    · exact .refl server
  · exact .refl server

theorem keeps_advanceTask (server : Server α) (id : ℕ) : server.Keeps (server.advanceTask id) := by
  simp only [Server.advanceTask]
  split
  · split
    · rename_i outcome _
      have hset := keeps_setTask server id (.removed outcome)
      exact ⟨hset.known, rfl, hset.shut, rfl⟩
    · exact keeps_setTask server id _
    · exact (keeps_report server _).trans (keeps_setTask _ id _)
    · exact (keeps_report server _).trans (keeps_setTask _ id _)
    · exact .refl server
  · exact .refl server

theorem keeps_abortTask (server : Server α) (id : ℕ) : server.Keeps (server.abortTask id) := by
  simp only [Server.abortTask]
  split
  · split
    · exact keeps_setTask server id _
    · exact .refl server
  · exact .refl server

theorem poll_cases (server : Server α) (connection : Option α) : server.Keeps (server.poll connection) ∨
    ∃ peer, server.loop = .selecting ∧ server.stopped = false ∧
      server.poll connection = { server with loop := .accepted peer, accepted := server.accepted ++ [peer] } := by
  simp only [Server.poll]
  split
  · rename_i hloop
    split
    · have hgoto : server.Keeps { server with loop := .stopping } := keeps_loop (by rw [hloop]; rfl) fun _ => rfl
      exact .inl ⟨hgoto.known, rfl, hgoto.shut, rfl⟩
    · rename_i hstopped
      split
      · rename_i peer
        exact .inr ⟨peer, hloop, by simpa using hstopped, rfl⟩
      · exact .inl (.refl server)
  · exact .inl (.refl server)

theorem step_cases (server : Server α) (action : Action α) : server.Keeps (step server action) ∨
    ∃ peer, server.loop = .selecting ∧ server.stopped = false ∧
      step server action = { server with loop := .accepted peer, accepted := server.accepted ++ [peer] } := by
  cases action with
  | stop => exact .inl ⟨.refl _, rfl, fun _ => rfl, rfl⟩
  | poll connection => exact poll_cases server connection
  | serve ok => exact .inl (keeps_serve server ok)
  | advance panics => exact .inl (keeps_advance server panics)
  | drain id => exact .inl (keeps_drain server id)
  | drop => exact .inl (keeps_drop server)
  | finish id outcome => exact .inl (keeps_finish server id outcome)
  | advanceTask id => exact .inl (keeps_advanceTask server id)
  | abortTask id => exact .inl (keeps_abortTask server id)

theorem known_reached (observer : Bool) (actions : List (Action α)) :
    (reached observer actions).known.Perm (reached observer actions).accepted := by
  induction actions using List.reverseRecOn with
  | nil => exact .refl _
  | append_singleton actions action ih =>
    rw [reached_append]
    rcases step_cases (reached observer actions) action with hkeeps | ⟨peer, hloop, -, hstep⟩
    · exact hkeeps.accepted ▸ hkeeps.known.trans ih
    · simp only [List.foldl_cons, List.foldl_nil, hstep]
      simp only [Server.known, hloop, Loop.pending, List.append_nil] at ih
      exact ih.append_right [peer]

theorem observer_reached (observer : Bool) (actions : List (Action α)) :
    (reached observer actions).observer = observer := by
  induction actions using List.reverseRecOn with
  | nil => rfl
  | append_singleton actions action ih =>
    rw [reached_append]
    rcases step_cases (reached observer actions) action with hkeeps | ⟨peer, -, -, hstep⟩
    · exact hkeeps.observer.trans ih
    · simp only [List.foldl_cons, List.foldl_nil, hstep]
      exact ih

theorem shut_run (hshut : server.shut = true) (actions : List (Action α)) :
    (actions.foldl step server).shut = true ∧ (actions.foldl step server).accepted = server.accepted := by
  induction actions generalizing server with
  | nil => exact ⟨hshut, rfl⟩
  | cons action actions ih =>
    rcases step_cases server action with hkeeps | ⟨peer, hloop, hstopped, -⟩
    · obtain ⟨hshut', haccepted⟩ := ih (hkeeps.shut hshut)
      exact ⟨hshut', haccepted.trans hkeeps.accepted⟩
    · simp [Server.shut, hloop, hstopped, Loop.broken] at hshut

end Accepting

/-! ## The barrier -/

theorem dropped_aborts {server : Server α} (h : Sound server) (hloop : server.loop = .selecting ∨ server.loop = .waiting)
    (id : ℕ) (hid : id ∈ server.ids) : ∃ conn, server.drop.conns[id]? = some conn ∧ conn.aborting = true := by
  have hdrop : server.drop = server.abortLive := by
    rcases hloop with hloop | hloop <;> simp [Server.drop, hloop]
  obtain ⟨old, hold, -⟩ := (h.exact id).mp hid
  obtain ⟨entry, hentry, rfl⟩ := List.mem_map.mp hid
  have hfilled : entry.2 = true := by
    refine (h.backfilled entry hentry).resolve_right ?_
    rcases hloop with hloop | hloop <;> simp [hloop]
  refine ⟨{ old with aborting := true }, ?_, rfl⟩
  rw [hdrop]
  simp only [Server.abortLive, List.getElem?_mapIdx, hold, Option.map_some]
  rw [if_pos]
  rwa [← hfilled]

end Ngnet.AxumServer
