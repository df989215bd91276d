import Ngnet.QuicEndpointDriver

/-!
# A host that follows a script

Connections, a socket and a platform whose answers are listed beforehand. The runs that are computed
elsewhere are runs of this host.
-/

namespace Ngnet.QuicScriptedHost
open QmuxVarints InterleavedPrograms QuicEndpoint QuicEndpointDriver
open QuicStreamWrites (StreamWrite)
open QmuxConnection (Poll)

/-- The answers of a connection, in order, to the calls of each kind. -/
structure ScriptedConn where
  reads : List (Except CoreError ReadOutcome × List Note) := []
  writes : List (Except CoreError WriteOutcome × Bytes × List Note) := []
  streamWrites : List (StreamWrite × Bytes × List Note) := []
  closes : List Bytes := []
  /-- The deadlines, and what is answered when they are reached. -/
  expiries : List (ℕ × Except CoreError ExpiryOutcome × List Note) := []
  scids : List Bytes := []
  payload : ℕ := 1200

/-- No more is accepted than was offered. -/
def clamp (len : ℕ) : StreamWrite → StreamWrite
  | .datagram size accepted => .datagram size (min accepted len)
  | outcome => outcome

def ScriptedConn.answer (conn : ScriptedConn) : {α : Type} → ConnCall α → α × List Note × ScriptedConn
  | _, .readPkt _ _ =>
    match conn.reads with
    | (answer, notes) :: reads => (answer, notes, { conn with reads })
    | [] => (.ok .processed, [], conn)
  | _, .writePkt _ =>
    match conn.writes with
    | (answer, buffer, notes) :: writes => ((answer, buffer), notes, { conn with writes })
    | [] => ((.ok .idle, []), [], conn)
  | _, .writeStream _ data _ _ =>
    match conn.streamWrites with
    | (answer, buffer, notes) :: streamWrites => ((.ok (clamp data.length answer), buffer), notes, { conn with streamWrites })
    | [] => ((.ok (.datagram 1 data.length), [0]), [], conn)
  | _, .writeConnectionClose _ _ _ =>
    match conn.closes with
    | close :: closes => ((.ok close.length, close), [], { conn with closes })
    | [] => ((.ok 0, []), [], conn)
  | _, .handleExpiry _ =>
    match conn.expiries with
    | (_, answer, notes) :: expiries => (answer, notes, { conn with expiries })
    | [] => (.ok .handled, [], conn)
  | _, .openBidiStream | _, .openUniStream => (.error ⟨.blocked, false⟩, [], conn)
  | _, .resetStream _ _ | _, .stopSending _ _ | _, .extendMaxStreamOffset _ _ => (.ok (), [], conn)
  | _, .extendMaxOffset _ => ((), [], conn)

theorem accepted_clamp {len : ℕ} {outcome : StreamWrite} {size accepted : ℕ}
    (h : clamp len outcome = .datagram size accepted) : accepted ≤ len := by
  cases outcome with
  | datagram =>
    cases h
    exact Nat.min_le_right _ _
  | _ => cases h

instance : Transport ScriptedConn where
  call call conn := conn.answer call
  expiry conn := conn.expiries.head?.map (·.1)
  inDrainingPeriod _ := false
  closeError _ := ⟨.idleTimeout, 0, []⟩
  maxTxUdpPayloadSize conn := conn.payload
  retainedBytes _ := 0
  scids conn := conn.scids
  scid conn := conn.scids.headD []
  accepts_le conn stream data fin now len accepted h := by
    dsimp only [ScriptedConn.answer] at h
    split at h
    · exact accepted_clamp (Except.ok.inj h)
    · obtain ⟨-, rfl⟩ := StreamWrite.datagram.inj (Except.ok.inj h)
      exact Nat.le_refl _

/-- What arrives, and how the sends go. -/
structure ScriptedSocket where
  arriving : List (Bytes × Address) := []
  sends : List Sent := []

instance : Socket ScriptedSocket where
  pollRecv socket :=
    match socket.arriving with
    | datagram :: arriving => (.ready (.ok datagram), { socket with arriving })
    | [] => (.pending, socket)
  pollSend _ _ socket :=
    match socket.sends with
    | sent :: sends => (.ready (.ok sent), { socket with sends })
    | [] => (.ready (.ok .complete), socket)

/-- The connections that are built, in order. A datagram is addressed to its first byte, and one that starts
with 0 is an acceptable first packet, addressed to its second. -/
structure ScriptedPlatform where
  conns : List ScriptedConn := []
  clock : ℕ := 0

def ScriptedPlatform.build (platform : ScriptedPlatform) : Except Error ScriptedConn × ScriptedPlatform :=
  match platform.conns with
  | conn :: conns => (.ok conn, { platform with conns })
  | [] => (.error socketFailed, platform)

def initialPacket : Bytes → Option InitialPacket
  | 0 :: id :: _ => some ⟨[id], [], [], 1⟩
  | _ => none

instance : Platform ScriptedPlatform ScriptedConn where
  now platform := (platform.clock, platform)
  arrange keys platform := (⟨keys, .refl keys⟩, platform)
  inspect _ datagram := (initialPacket datagram).map (·.dcid) <|> datagram.head?.map fun id => [id]
  inspectInitial _ datagram := initialPacket datagram
  dial _ _ platform := platform.build
  accept _ _ _ _ platform := platform.build
  decide := none
  statelessReset _ platform := (none, platform)
  pollSleep deadline platform := (deadline ≤ platform.clock, platform)

abbrev ScriptedWorld := World ScriptedConn ScriptedSocket ScriptedPlatform

/-- An endpoint on this host. -/
def scripted (config : Config) : System (Op ScriptedConn) Error Unit ScriptedWorld Action := endpoint config 5

/-- The state that a run of it reaches. -/
def played (config : Config) (socket : ScriptedSocket) (platform : ScriptedPlatform) (detachable : Bool)
    (choices : List (Choice Action)) : ScriptedWorld :=
  ((scripted config).reached (built socket platform detachable) choices).state

end Ngnet.QuicScriptedHost
