import Ngnet.QmuxVarints

/-!
# Stream identifiers and what a connection reports

`stream.rs`, `stream_io.rs` and `io/event.rs`. The low bit of an identifier names the side
that opened the stream, the next one its directionality. The parameters carried by a
transport-parameters event are read by nothing here and are left out.
-/

namespace Ngnet.QmuxStreams
open QmuxVarints

inductive Role | client | server
  deriving DecidableEq, Repr

inductive Initiator | client | server
  deriving DecidableEq, Repr

inductive Directionality | bidirectional | unidirectional
  deriving DecidableEq, Repr

theorem zero_le_maxVarint : 0 ≤ maxVarint := by decide

theorem one_le_maxVarint : 1 ≤ maxVarint := by decide

theorem two_le_maxVarint : 2 ≤ maxVarint := by decide

theorem four_le_maxVarint : 4 ≤ maxVarint := by decide

/-- A stream identifier, which `StreamId::new` keeps within the range of a varint. -/
structure StreamId where
  val : ℕ
  le_max : val ≤ maxVarint
  deriving DecidableEq, Repr

namespace StreamId

def new (id : ℤ) : Option StreamId :=
  if h : 0 ≤ id ∧ id ≤ maxVarint then some ⟨id.toNat, by omega⟩ else none

def initiator (id : StreamId) : Initiator :=
  if id.val &&& 0x1 = 0 then .client else .server

def directionality (id : StreamId) : Directionality :=
  if id.val &&& 0x2 = 0 then .bidirectional else .unidirectional

def isBidirectional (id : StreamId) : Bool := id.directionality = .bidirectional

end StreamId

inductive Shutdown | read | write | both
  deriving DecidableEq, Repr

inductive OpenOutcome
  | opened (stream : StreamId)
  | blocked
  deriving DecidableEq, Repr

inductive ReadOutcome | processed | peerClosed
  deriving DecidableEq, Repr

inductive StreamLimitKind | localBidi | localUni | remoteBidi | remoteUni
  deriving DecidableEq, Repr

inductive Event
  | streamData (stream : StreamId) (offset : ℕ) (data : Bytes) (fin : Bool)
  | streamOpened (stream : StreamId)
  | streamClosed (stream : StreamId) (rxAppErrorCode txAppErrorCode : Option ℕ)
  | streamReset (stream : StreamId) (finalSize appErrorCode : ℕ)
  | stopSending (stream : StreamId) (appErrorCode : ℕ)
  | streamDataCredit (stream : StreamId) (maxData : ℕ)
  | connectionDataCredit (available : ℕ)
  | streamLimit (kind : StreamLimitKind) (maxStreams : ℕ)
  | peerTransportParams
  deriving DecidableEq, Repr

/-- How many bytes of stream data an event carries. -/
def Event.dataLen : Event → ℕ
  | .streamData _ _ data _ => data.length
  | _ => 0

end Ngnet.QmuxStreams
