import Ngnet.StatefulPrograms
import Ngnet.ShortWrites
import Ngnet.Http2Heads

/-!
# The drains of an HTTP/2 connection

How `http/driver.rs` of the crate `ngnet-h2` writes out what the session produces in one pass, with the emulated
gathering writes of `http/transport/mod.rs`. A transport is a parameter; a call of it awaits nothing here. What the
calls of `send_into` return until one returns nothing or fails is a `Pass`, which the drain uses up. Capacities are
left out. A slice or an index out of its bounds and a failed `debug_assert` are panics.

Each of the four drains writes the octets of the pass, whatever the calls returned and however the transport
takes them.
-/

namespace Ngnet.Http2Drains
open QmuxVarints StatefulPrograms ShortWrites Http2Heads
open Http3Heads (ErrorKind)

/-! ## What is written -/

structure SendRecord where
  header : Bytes
  payload : Bytes
  nine : header.length = 9
  deriving DecidableEq, Repr

/-- What the calls of `send_into` return in one pass, each behind the records it appended to the sink. -/
inductive Pass
  | done (records : List SendRecord)
  | failed (records : List SendRecord)
  | block (records : List SendRecord) (block : Bytes) (nonempty : block ≠ []) (rest : Pass)

def recordOctets (records : List SendRecord) : Bytes :=
  records.flatMap fun record => record.header ++ record.payload

/-- What a pass has to write. -/
def Pass.octets : Pass → Bytes
  | .done records | .failed records => recordOctets records
  | .block records bytes _ rest => recordOctets records ++ bytes ++ rest.octets

def Pass.hasFailed : Pass → Bool
  | .done _ => false
  | .failed _ => true
  | .block _ _ _ rest => rest.hasFailed

/-! ## Transports -/

/-- A transport of either model: the write that every transport has, which takes a beginning of what it is offered,
and the gathering write that takes the place of the provided one. -/
class TransportWrite (τ : Type) where
  write : Bytes → τ → Except Unit ℕ × τ
  gather : Option (List Bytes → τ → Except Unit ℕ × τ)
  write_le : ∀ data io n, (write data io).1 = .ok n → n ≤ data.length
  gather_le : ∀ native ∈ gather, ∀ regions io n, (native regions io).1 = .ok n → n ≤ regions.flatten.length

/-- Of whatever it is offered, the transport accepts at least one octet. -/
structure Accepting (τ : Type) [TransportWrite τ] : Prop where
  write : ∀ data (io : τ), data ≠ [] → ∃ n, 0 < n ∧ (TransportWrite.write data io).1 = .ok n
  gather : ∀ native ∈ TransportWrite.gather (τ := τ), ∀ regions (io : τ), regions.flatten ≠ [] →
    ∃ n, 0 < n ∧ (native regions io).1 = .ok n

/-- A writer, with the octets the transport accepted and everything it was offered. -/
structure Writer (τ : Type) where
  io : τ
  accepted : Bytes := []
  offers : List (List Bytes) := []

/-! ## The state of a drain -/

inductive Region
  | gathered (start stop : ℕ)
  | header (index : ℕ)
  | payload (index : ℕ)
  deriving DecidableEq, Repr

structure WriteBuffers where
  gathered : Bytes := []
  coalesced : Bytes := []
  sendRecords : List SendRecord := []
  regions : List Region := []
  minted : Bytes := []
  owned : List Bytes := []

/-- A writer and the buffers, with the two cursors of a flush: where the open run starts, and how many records of
the sink the list names. -/
structure Draining (τ : Type) where
  writer : Writer τ
  buffers : WriteBuffers := {}
  runStart : ℕ := 0
  regioned : ℕ := 0

abbrev Flush (τ : Type) := Program Fault (Draining τ)

def vectoredThreshold : ℕ := 256

def maxRegions : ℕ := 64

def zeroWrite : Error := ⟨.transport, "the transport accepted no octets and reported no error", none⟩

section Flush
variable {τ α : Type}

def failing (error : Error) : Flush τ α := fail (.returned error)

def panicking : Flush τ α := fail .panicked

def debugAssert (holds : Draining τ → Bool) : Flush τ Unit := do
  if ¬ holds (← get) then panicking

def modifyBuffers (f : WriteBuffers → WriteBuffers) : Flush τ Unit :=
  modify fun s => { s with buffers := f s.buffers }

/-- `Session::send_into` appends to the sink before it returns. -/
def deposit (records : List SendRecord) : Flush τ Unit :=
  modifyBuffers fun b => { b with sendRecords := b.sendRecords ++ records }

/-! ## Writing -/

variable [TransportWrite τ]

/-- One call of the transport, over what it was offered. -/
def Writer.call (native : List Bytes → τ → Except Unit ℕ × τ) (offer : List Bytes) (w : Writer τ) :
    Except Unit ℕ × Writer τ :=
  match native offer w.io with
  | (.ok n, io) => (.ok n, ⟨io, w.accepted ++ offer.flatten.take n, w.offers ++ [offer]⟩)
  | (.error _, io) => (.error (), ⟨io, w.accepted, w.offers ++ [offer]⟩)

def calling (native : List Bytes → τ → Except Unit ℕ × τ) (offer : List Bytes) : Flush τ (Except Unit ℕ) := fun s =>
  let (answer, writer) := s.writer.call native offer
  .ok answer { s with writer }

/-- `write_borrowed`, or `write_owned`. -/
def writeOne (data : Bytes) : Flush τ (Except Unit ℕ) :=
  calling (fun _ => TransportWrite.write data) [data]

/-- `emulate_gathering`, and `emulate_region_gathering`, from `total` octets on. -/
def emulateGathering : List Bytes → ℕ → Flush τ (Except Unit ℕ)
  | [], total => pure (.ok total)
  | region :: rest, total =>
    if region = [] then emulateGathering rest total
    else do
      match ← writeOne region with
      | .error e => pure (.error e)
      | .ok written =>
        if written < region.length then pure (.ok (total + written)) else emulateGathering rest (total + written)

/-- `write_vectored`, or `write_regions`. -/
def writeVectored (regions : List Bytes) : Flush τ (Except Unit ℕ) :=
  match TransportWrite.gather (τ := τ) with
  | some native => calling native regions
  | none => do
    modify fun s => { s with writer := { s.writer with offers := s.writer.offers ++ [regions] } }
    emulateGathering regions 0

/-! ## The coalescing drains -/

def accumulating : Pass → Flush τ Unit
  | .done records => do
    deposit records
    modifyBuffers fun b => { b with coalesced := b.coalesced ++ recordOctets b.sendRecords, sendRecords := [] }
  | .failed records => do
    deposit records
    modifyBuffers fun b => { b with sendRecords := [] }
    failing .ofSession
  | .block records block _ rest => do
    deposit records
    modifyBuffers fun b =>
      { b with coalesced := b.coalesced ++ recordOctets b.sendRecords ++ block, sendRecords := [] }
    accumulating rest

def accumulateCoalesced (pass : Pass) : Flush τ Unit := do
  modifyBuffers fun b => { b with coalesced := [] }
  accumulating pass
  debugAssert fun s => s.buffers.sendRecords.isEmpty

/-- Offers what is pending until nothing is; at least one octet is written at a time. -/
def writePending : ℕ → Bytes → Flush τ Unit
  | _, [] => pure ()
  | 0, _ :: _ => outOfFuel
  | fuel + 1, first :: more => do
    match ← writeOne (first :: more) with
    | .error _ => failing .ofIo
    | .ok 0 => failing zeroWrite
    | .ok (written + 1) => writePending fuel ((first :: more).drop (written + 1))

def flushCoalescedBorrowed (pass : Pass) : Flush τ Unit := do
  accumulateCoalesced pass
  let out := (← get).buffers.coalesced
  writePending out.length out

/-- What was coalesced is split off and handed over. -/
def flushCoalescedOwned (pass : Pass) : Flush τ Unit := do
  accumulateCoalesced pass
  let pending := (← get).buffers.coalesced
  modifyBuffers fun b => { b with coalesced := [] }
  writePending pending.length pending

/-! ## The gathered drain of borrowed regions -/

/-- The octets a descriptor names. -/
def Region.slice (gathered : Bytes) (records : List SendRecord) : Region → Option Bytes
  | .gathered start stop =>
    if start ≤ stop ∧ stop ≤ gathered.length then some ((gathered.take stop).drop start) else none
  | .header index => records[index]?.map (·.header)
  | .payload index => records[index]?.map (·.payload)

/-- Puts a slice into the next of the slots, of which there are 65. -/
def fillSlot (slots : List Bytes) (slice : Bytes) : Option (List Bytes) :=
  if slots.length < maxRegions + 1 then some (slots ++ [slice]) else none

def fillSlots (gathered : Bytes) (records : List SendRecord) : List Region → List Bytes → Option (List Bytes)
  | [], slots => some slots
  | region :: rest, slots => do
    let slice ← region.slice gathered records
    if slice = [] then fillSlots gathered records rest slots
    else fillSlots gathered records rest (← fillSlot slots slice)

def materialise (b : WriteBuffers) (tail : Bytes) : Option (List Bytes) := do
  let slots ← fillSlots b.gathered b.sendRecords b.regions []
  if tail = [] then some slots else fillSlot slots tail

/-- The offer of `write_gathering`: the regions behind the `skip` octets that are done. -/
def offerFrom : ℕ → List Bytes → List Bytes
  | _, [] => []
  | skip, slice :: rest =>
    if slice.length ≤ skip then offerFrom (skip - slice.length) rest else slice.drop skip :: offerFrom 0 rest

/-- `write_gathering` with `done` octets written. -/
def writeGathering (slices : List Bytes) : ℕ → ℕ → Flush τ (Except Error Unit)
  | fuel, done =>
    if slices.flatten.length ≤ done then pure (.ok ())
    else match fuel with
    | 0 => outOfFuel
    | fuel + 1 => do
      if maxRegions + 1 < (offerFrom done slices).length then panicking
      match ← writeVectored (offerFrom done slices) with
      | .error _ => pure (.error .ofIo)
      | .ok 0 => pure (.error zeroWrite)
      | .ok (written + 1) => writeGathering slices fuel (done + (written + 1))

/-- Closes the open run of small blocks, if there is one, into a region. -/
def Draining.closeRun (start : ℕ) (s : Draining τ) : Draining τ :=
  if s.runStart < s.buffers.gathered.length then
    { s with
      buffers := { s.buffers with
        regions := s.buffers.regions ++ [.gathered s.runStart s.buffers.gathered.length] },
      runStart := start }
  else s

def flushRegions (tail : Bytes) : Flush τ Unit := do
  modify fun s => s.closeRun s.runStart
  debugAssert fun s => s.buffers.regions.length + (if tail = [] then 0 else 1) ≤ maxRegions + 1
  match materialise (← get).buffers tail with
  | none => panicking
  | some slices =>
    match ← writeGathering slices slices.flatten.length 0 with
    | .error error => do
      modify fun s => { s with
        buffers := { s.buffers with gathered := [], sendRecords := [], regions := [] }, runStart := 0, regioned := 0 }
      failing error
    | .ok () =>
      modify fun s => { s with
        buffers := { s.buffers with
          gathered := [], sendRecords := s.buffers.sendRecords.drop s.regioned, regions := [] },
        runStart := 0, regioned := 0 }

/-- The loop that makes two regions of each record. -/
def nameRecords : ℕ → Flush τ Unit
  | 0 => do
    let s ← get
    if s.regioned < s.buffers.sendRecords.length then outOfFuel
  | fuel + 1 => do
    let s ← get
    if s.regioned < s.buffers.sendRecords.length then
      if maxRegions < s.buffers.regions.length + 2 then flushRegions []
      modify fun s => { s with
        buffers := { s.buffers with regions := s.buffers.regions ++ [.header s.regioned, .payload s.regioned] },
        regioned := s.regioned + 1 }
      nameRecords fuel

/-- What the loop does with the records that a call appended. -/
def takeRecords : Flush τ Unit := do
  let s ← get
  if s.regioned < s.buffers.sendRecords.length then
    if s.runStart < s.buffers.gathered.length ∧ maxRegions ≤ s.buffers.regions.length then flushRegions []
    modify fun s => s.closeRun s.buffers.gathered.length
    nameRecords (s.buffers.sendRecords.length - s.regioned)

/-- What the loop does with the block that a call returned. -/
def takeBlock (block : Bytes) : Flush τ Unit := do
  if block.length < vectoredThreshold then
    let s ← get
    if s.buffers.gathered.length = s.runStart ∧ maxRegions ≤ s.buffers.regions.length then flushRegions []
    modifyBuffers fun b => { b with gathered := b.gathered ++ block }
  else flushRegions block

def gathering : Pass → Flush τ Unit
  | .done records => do
    deposit records
    takeRecords
  | .failed records => do
    deposit records
    modifyBuffers fun b => { b with sendRecords := [], regions := [] }
    failing .ofSession
  | .block records block _ rest => do
    deposit records
    takeRecords
    takeBlock block
    gathering rest

def flushReadiness (pass : Pass) : Flush τ Unit := do
  modify fun s => { s with buffers := { s.buffers with gathered := [], regions := [] }, runStart := 0, regioned := 0 }
  gathering pass
  let s ← get
  if s.buffers.regions ≠ [] ∨ s.runStart < s.buffers.gathered.length then flushRegions []
  debugAssert fun s => s.buffers.sendRecords.isEmpty
  debugAssert fun s => s.buffers.regions.isEmpty

/-! ## The gathered drain of owned regions -/

/-- The loop of `write_owned` over the regions it holds. -/
def writeRegions : ℕ → List Bytes → Flush τ Unit
  | 0, _ => outOfFuel
  | fuel + 1, regions => do
    match ← writeVectored regions with
    | .error _ => abandon .ofIo
    | .ok 0 => abandon zeroWrite
    | .ok (written + 1) =>
      if regions.flatten.length ≤ written + 1 then
        modify fun s => { s with
          buffers := { s.buffers with owned := [], sendRecords := s.buffers.sendRecords.drop s.regioned },
          regioned := 0 }
      else writeRegions fuel (leftOver (written + 1) regions)
where
  abandon (error : Error) : Flush τ Unit := do
    modify fun s => { s with buffers := { s.buffers with owned := [], sendRecords := [] }, regioned := 0 }
    failing error

def writeOwned : Flush τ Unit := do
  let regions := (← get).buffers.owned
  modifyBuffers fun b => { b with owned := [] }
  writeRegions (regions.flatten.length + 1) regions

/-- Splits what was minted off into a region, behind a write if the list is full. -/
def mintRun : Flush τ Unit := do
  if (← get).buffers.minted ≠ [] then
    if maxRegions ≤ (← get).buffers.owned.length then writeOwned
    modifyBuffers fun b => { b with owned := b.owned ++ [b.minted], minted := [] }

/-- The regions of a record: its header is minted, and its payload is one if it has octets. -/
def recordRegions (minted : Bytes) (record : SendRecord) : List Bytes :=
  (minted ++ record.header) :: if record.payload = [] then [] else [record.payload]

def ownRecord : Flush τ Unit := do
  let s ← get
  match s.buffers.sendRecords[s.regioned]? with
  | none => panicking
  | some record => modify fun s => { s with
      buffers := { s.buffers with owned := s.buffers.owned ++ recordRegions s.buffers.minted record, minted := [] },
      regioned := s.regioned + 1 }

def ownRecords : ℕ → Flush τ Unit
  | 0 => do
    let s ← get
    if s.regioned < s.buffers.sendRecords.length then outOfFuel
  | fuel + 1 => do
    let s ← get
    if s.regioned < s.buffers.sendRecords.length then
      if maxRegions < s.buffers.owned.length + 2 then writeOwned
      ownRecord
      ownRecords fuel

def ownTaken : Flush τ Unit := do
  let s ← get
  if s.regioned < s.buffers.sendRecords.length then
    mintRun
    ownRecords (s.buffers.sendRecords.length - s.regioned)

def ownBlock (block : Bytes) : Flush τ Unit := do
  let s ← get
  if s.buffers.minted = [] ∧ maxRegions ≤ s.buffers.owned.length then writeOwned
  modifyBuffers fun b => { b with minted := b.minted ++ block }

def owning : Pass → Flush τ Unit
  | .done records => do
    deposit records
    ownTaken
  | .failed records => do
    deposit records
    modifyBuffers fun b => { b with sendRecords := [], owned := [] }
    failing .ofSession
  | .block records block _ rest => do
    deposit records
    ownTaken
    ownBlock block
    owning rest

def flushOwned (pass : Pass) : Flush τ Unit := do
  modify fun s => { s with buffers := { s.buffers with minted := [], owned := [] }, regioned := 0 }
  owning pass
  mintRun
  if (← get).buffers.owned ≠ [] then writeOwned
  debugAssert fun s => s.buffers.sendRecords.isEmpty
  debugAssert fun s => s.buffers.owned.isEmpty

/-! ## Choosing a drain -/

inductive Drain
  | gathered | coalescedBorrowed | ownedRegions | coalescedOwned
  deriving DecidableEq, Repr

/-- How many regions a drain may offer at once. -/
def Drain.room : Drain → ℕ
  | .gathered | .coalescedBorrowed => maxRegions + 1
  | .ownedRegions | .coalescedOwned => maxRegions

/-- `Drains::drain`; the model of the transport and what `is_write_vectored` said choose. -/
def flush (drain : Drain) (pass : Pass) : Flush τ Unit :=
  match drain with
  | .gathered => flushReadiness pass
  | .coalescedBorrowed => flushCoalescedBorrowed pass
  | .ownedRegions => flushOwned pass
  | .coalescedOwned => flushCoalescedOwned pass

end Flush

end Ngnet.Http2Drains
