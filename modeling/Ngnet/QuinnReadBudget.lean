import Ngnet.ListUpdates
import Ngnet.QmuxStreams

/-!
# The read-ahead of the Quinn adapter

The reader tasks of `lib.rs` share one budget. A reader looks whether the budget is zero, waits
for a chunk, charges the chunk's length and hands it to the driver's channel; the layer gives
the bytes it consumed back. Each of these is a step of its own, taken in any order by any
number of readers.

The charge saturates and the credit does not: a chunk larger than what is left of the budget
is given back in full, so the sum of the budget and the bytes outstanding grows by what was
not charged. Where no charge saturates the sum never grows.
-/

namespace Ngnet.QuinnReadBudget
open QmuxStreams QmuxVarints ListUpdates

/-! ## The program -/

/-- How much of a stream to read at once. -/
def readChunk : ℕ := 64 * 1024

/-- How far ahead of the layer the reader tasks may run, in bytes. -/
def initialBudget : ℕ := 256 * 1024

structure ReadBudget where
  bytes : ℕ
  deriving DecidableEq, Repr

namespace ReadBudget

def new (bytes : ℕ) : ReadBudget := ⟨bytes⟩

/-- `fetch_add` on a 64-bit number. -/
def add (b : ReadBudget) (bytes : ℕ) : ReadBudget := ⟨(b.bytes + bytes) % 2 ^ 64⟩

def take (b : ReadBudget) (bytes : ℕ) : ReadBudget := ⟨b.bytes - bytes⟩

end ReadBudget

/-- What the sender's half of a reader's stop channel did. -/
inductive Signal
  | silent
  | sent (code : ℕ)
  | dropped
  deriving DecidableEq, Repr

/-- What Quinn answers to a read. -/
inductive ReadResult
  | chunk (bytes : Bytes)
  | finished
  | connectionLost
  | reset (code : ℕ)
  | otherError
  deriving DecidableEq, Repr

/-- Where a reader task stands between two of its atomic steps. -/
inductive Stage
  /-- at the head of the loop that looks whether the budget is zero -/
  | checking
  /-- in `wait_for_budget`: whether the budget was looked at, and whether it was added to since
  the future was made -/
  | waiting (loaded notified : Bool)
  | reading
  | charging (bytes : Bytes)
  | handing (bytes : Bytes)
  | ended
  deriving DecidableEq, Repr

structure Reader where
  stream : StreamId
  stage : Stage
  pending : Option Bytes
  stop : Option Signal
  deriving DecidableEq, Repr

/-- What moves a reader on. -/
inductive Move
  | check
  | load
  | available
  | driverGone
  /-- the stop signal is seen; whether Quinn accepts the stop -/
  | stop (accepted : Bool)
  | read (result : ReadResult)
  | charge
  | hand
  deriving DecidableEq, Repr

/-- `Incoming`: an observation waiting to be ordered against releases and terminal events. The handles Quinn gives out
are a parameter, as they are in the source. -/
inductive Incoming (Handle Stop : Type)
  | data (stream : StreamId) (bytes : Bytes) (fin : Bool)
  | accepted (stream : StreamId) (send : Handle) (stop : Stop)
  | reset (stream : StreamId) (code : ℕ)
  | recvStopped (stream : StreamId) (code : ℕ)
  | stopSending (stream : StreamId) (code : ℕ)
  | sendStopped (stream : StreamId) (code : Option ℕ)
  | closed

abbrev Message := Incoming Unit Unit

/-- The messages that enter the channel, which takes none once it is closed. -/
def enters (channelOpen : Bool) (message : Message) : List Message :=
  if channelOpen then [message] else []

namespace Reader

/-- A read that returned no chunk ends the reader. -/
def conclude (r : Reader) (channelOpen : Bool) (result : ReadResult) : Reader × List Message :=
  ({ r with stage := .ended }, enters channelOpen (match result with
    | .finished => .data r.stream [] true
    | .connectionLost => .closed
    | .reset code => .reset r.stream code
    | _ => .reset r.stream 0x102))

/-- The stop signal: a stop that Quinn accepts ends the reader, otherwise it reads once more
without looking at the budget. -/
def stopped (r : Reader) (channelOpen accepted : Bool) (signal : Signal) :
    Option (Reader × List Message) :=
  match signal with
  | .silent => none
  | .sent code =>
    if accepted then
      some ({ r with stage := .ended, stop := none }, enters channelOpen (.recvStopped r.stream code))
    else some ({ r with stage := .reading, stop := none }, [])
  | .dropped => some ({ r with stage := .reading, stop := none }, [])

def move (r : Reader) (budget : ReadBudget) (channelOpen : Bool) :
    Move → Option (Reader × ReadBudget × List Message)
  | .check =>
    if r.stage = .checking then
      some ({ r with stage := if budget.bytes = 0 then .waiting false false else .reading }, budget, [])
    else none
  | .load =>
    match r.stage with
    | .waiting false notified =>
      some ({ r with stage := if budget.bytes = 0 then .waiting true notified else .checking }, budget, [])
    | _ => none
  | .available =>
    if r.stage = .waiting true true then some ({ r with stage := .checking }, budget, []) else none
  | .driverGone =>
    match r.stage with
    | .waiting true _ => if channelOpen then none else some ({ r with stage := .ended }, budget, [])
    | _ => none
  | .stop accepted =>
    match r.stage, r.pending, r.stop with
    | .waiting true _, _, some signal =>
      (r.stopped channelOpen accepted signal).map fun (r, sent) => (r, budget, sent)
    | .reading, none, some signal =>
      (r.stopped channelOpen accepted signal).map fun (r, sent) => (r, budget, sent)
    | _, _, _ => none
  | .read result =>
    match r.stage, r.pending with
    | .waiting _ _, none =>
      -- With no budget the reader looks for the end of the stream one byte at a time.
      match result with
      | .chunk bytes =>
        if bytes.length ≤ 1 then some ({ r with pending := some bytes, stage := .checking }, budget, [])
        else none
      | result =>
        let (r, sent) := r.conclude channelOpen result
        some (r, budget, sent)
    | .reading, some bytes =>
      if result = .chunk bytes then
        some ({ r with pending := none, stage := .charging bytes }, budget, [])
      else none
    | .reading, none =>
      match result with
      | .chunk bytes =>
        if bytes.length ≤ readChunk then some ({ r with stage := .charging bytes }, budget, []) else none
      | result =>
        let (r, sent) := r.conclude channelOpen result
        some (r, budget, sent)
    | _, _ => none
  | .charge =>
    match r.stage with
    | .charging bytes => some ({ r with stage := .handing bytes }, budget.take bytes.length, [])
    | _ => none
  | .hand =>
    match r.stage with
    | .handing bytes =>
      if channelOpen then some ({ r with stage := .checking }, budget, [.data r.stream bytes false])
      else some ({ r with stage := .ended }, budget, [])
    | _ => none

def notified (r : Reader) : Reader :=
  match r.stage with
  | .waiting loaded _ => { r with stage := .waiting loaded true }
  | _ => r

end Reader

/-- The connection: the shared budget, the readers, the messages that entered the driver's
channel and the bytes credited at the connection level. -/
structure World where
  budget : ReadBudget
  readers : List Reader
  channelOpen : Bool
  sent : List Message
  credited : ℕ

inductive Act
  | spawnReader (stream : StreamId) (stoppable : Bool)
  | reader (i : ℕ) (move : Move)
  | stopSending (i : ℕ) (code : ℕ)
  | dropStop (i : ℕ)
  | extendCredit (stream : Option StreamId) (bytes : ℕ)
  | closeEvents
  deriving DecidableEq, Repr

namespace World

def start : World := ⟨.new initialBudget, [], true, [], 0⟩

/-- The sender's half of a stop channel is used up. -/
def signal (w : World) (i : ℕ) (signal : Signal) : World :=
  { w with readers := w.readers.modify i fun r =>
    { r with stop := r.stop.map fun old => if old = .silent then signal else old } }

/-- `ReadBudget::add`, which notifies the readers that wait. -/
def extendCredit (w : World) (stream : Option StreamId) (bytes : ℕ) : World :=
  match stream with
  | some _ => w
  | none => { w with
      budget := w.budget.add bytes
      readers := w.readers.map Reader.notified
      credited := w.credited + bytes }

def moveReader (w : World) (i : ℕ) (move : Move) : Option World :=
  match w.readers[i]? with
  | none => none
  | some r => (r.move w.budget w.channelOpen move).map fun (r, budget, sent) =>
    { w with budget, readers := w.readers.modify i fun _ => r, sent := w.sent ++ sent }

def step (w : World) : Act → Option World
  | .spawnReader stream stoppable =>
    some { w with readers := w.readers ++ [⟨stream, .checking, none, if stoppable then some .silent else none⟩] }
  | .reader i move => w.moveReader i move
  | .stopSending i code => some (w.signal i (.sent code))
  | .dropStop i => some (w.signal i .dropped)
  | .extendCredit stream bytes => some (w.extendCredit stream bytes)
  | .closeEvents => some { w with channelOpen := false }

end World

def handedBy : Message → ℕ
  | .data _ bytes _ => bytes.length
  | _ => 0

def handed (sent : List Message) : ℕ := (sent.map handedBy).sum

/-- The bytes handed to the driver's channel. -/
def World.delivered (w : World) : ℕ := handed w.sent

/-- The readers that have not ended. -/
def World.live (w : World) : ℕ := w.readers.countP (·.stage ≠ .ended)

/-! ## Runs -/

/-- No more is credited than was delivered. -/
def Earned (w : World) : Act → Prop
  | .extendCredit none bytes => w.credited + bytes ≤ w.delivered
  | _ => True

/-- The chunk a reader charges is within what is left of the budget. -/
def Covered (w : World) : Act → Prop
  | .reader i .charge => ∀ r bytes, w.readers[i]? = some r → r.stage = .charging bytes →
      bytes.length ≤ w.budget.bytes
  | _ => True

/-- The worlds reached by steps that are allowed where they are taken. -/
inductive Reached (allowed : World → Act → Prop) : World → Prop
  | start : Reached allowed .start
  | step {w w' : World} {act : Act} : Reached allowed w → allowed w act → w.step act = some w' →
      Reached allowed w'

/-! ## The ledger -/

/-- The bytes a reader was charged for and has not handed on. -/
def Reader.inHand (r : Reader) : ℕ :=
  match r.stage with
  | .handing bytes => bytes.length
  | _ => 0

theorem handed_append (sent more : List Message) : handed (sent ++ more) = handed sent + handed more := by
  simp [handed]

theorem handed_enters {channelOpen : Bool} {message : Message} (h : handedBy message = 0) :
    handed (enters channelOpen message) = 0 := by
  cases channelOpen <;> simp [enters, handed, h]

theorem conclude_ledger (r : Reader) (channelOpen : Bool) (result : ReadResult) :
    handed (r.conclude channelOpen result).2 = 0 ∧ (r.conclude channelOpen result).1.inHand = 0 := by
  constructor
  · apply handed_enters
    cases result <;> rfl
  · rfl

theorem stopped_ledger {r r' : Reader} {channelOpen accepted : Bool} {signal : Signal} {sent : List Message}
    (h : r.stopped channelOpen accepted signal = some (r', sent)) : handed sent = 0 ∧ r'.inHand = 0 := by
  cases signal with
  | silent => cases h
  | dropped =>
    cases h
    exact ⟨rfl, rfl⟩
  | sent code =>
    rw [Reader.stopped] at h
    split at h
    · cases h
      exact ⟨handed_enters rfl, rfl⟩
    · cases h
      exact ⟨rfl, rfl⟩

theorem move_ledger {r r' : Reader} {budget budget' : ReadBudget} {channelOpen : Bool} {move : Move}
    {sent : List Message} (h : r.move budget channelOpen move = some (r', budget', sent))
    (hcovered : ∀ bytes, move = .charge → r.stage = .charging bytes → bytes.length ≤ budget.bytes) :
    budget'.bytes + handed sent + r'.inHand ≤ budget.bytes + r.inHand := by
  cases move with
  | check =>
    simp only [Reader.move, Option.ite_none_right_eq_some] at h
    obtain ⟨hstage, h⟩ := h
    cases h
    split <;> simp [handed, Reader.inHand]
  | load =>
    simp only [Reader.move] at h
    split at h
    · cases h
      split <;> simp [handed, Reader.inHand]
    · cases h
  | available =>
    simp only [Reader.move, Option.ite_none_right_eq_some] at h
    obtain ⟨hstage, h⟩ := h
    cases h
    simp [handed, Reader.inHand]
  | driverGone =>
    simp only [Reader.move] at h
    split at h
    · split at h
      · cases h
      · cases h
        simp [handed, Reader.inHand]
    · cases h
  | stop accepted =>
    simp only [Reader.move] at h
    split at h
    · obtain ⟨⟨r₁, sent₁⟩, hstopped, heq⟩ := Option.map_eq_some_iff.mp h
      obtain ⟨hsent, hhand⟩ := stopped_ledger hstopped
      cases heq
      dsimp only
      omega
    · obtain ⟨⟨r₁, sent₁⟩, hstopped, heq⟩ := Option.map_eq_some_iff.mp h
      obtain ⟨hsent, hhand⟩ := stopped_ledger hstopped
      cases heq
      dsimp only
      omega
    · cases h
  | read result =>
    simp only [Reader.move] at h
    split at h
    · split at h
      · split at h
        · cases h
          simp [handed, Reader.inHand]
        · cases h
      · cases h
        obtain ⟨hsent, hhand⟩ := conclude_ledger r channelOpen result
        omega
    · split at h
      · cases h
        simp [handed, Reader.inHand]
      · cases h
    · split at h
      · split at h
        · cases h
          simp [handed, Reader.inHand]
        · cases h
      · cases h
        obtain ⟨hsent, hhand⟩ := conclude_ledger r channelOpen result
        omega
    · cases h
  | charge =>
    simp only [Reader.move] at h
    split at h
    · rename_i bytes hstage
      have hfits := hcovered bytes rfl hstage
      cases h
      simp only [ReadBudget.take, handed, Reader.inHand, hstage, List.map_nil, List.sum_nil]
      omega
    · cases h
  | hand =>
    simp only [Reader.move] at h
    split at h
    · rename_i bytes hstage
      split at h
      · cases h
        simp [handed, handedBy, Reader.inHand, hstage]
      · cases h
        simp [handed, Reader.inHand]
    · cases h

/-- The budget, the bytes outstanding and the bytes in hand fit in what the budget began with. -/
structure Bounded (w : World) : Prop where
  earned : w.credited ≤ w.delivered
  ledger : w.budget.bytes + (w.delivered - w.credited) + (w.readers.map Reader.inHand).sum ≤ initialBudget

theorem bounded_start : Bounded .start := by
  constructor <;> simp [World.start, World.delivered, ReadBudget.new, handed]

theorem inHand_notified (r : Reader) : r.notified.inHand = r.inHand := by
  unfold Reader.notified
  split
  · next hstage => simp [Reader.inHand, hstage]
  · rfl

theorem Bounded.step {w w' : World} {act : Act} (hb : Bounded w) (hearned : Earned w act)
    (hcovered : Covered w act) (hstep : w.step act = some w') : Bounded w' := by
  obtain ⟨hcredited, hledger⟩ := hb
  cases act with
  | spawnReader stream stoppable =>
    cases hstep
    constructor
    · exact hcredited
    · simpa [Reader.inHand, World.delivered] using hledger
  | reader i move =>
    simp only [World.step, World.moveReader] at hstep
    split at hstep
    · cases hstep
    · next r hr =>
      obtain ⟨⟨r', budget, sent⟩, hmove, rfl⟩ := Option.map_eq_some_iff.mp hstep
      have hmoved := move_ledger hmove fun bytes hcharge hstage => by
        subst hcharge
        exact hcovered r bytes hr hstage
      have hsum := sum_map_modify (f := fun _ => r') (g := Reader.inHand) hr
      have hdelivered : World.delivered { w with
          budget, readers := w.readers.modify i fun _ => r', sent := w.sent ++ sent } =
          w.delivered + handed sent := handed_append w.sent sent
      constructor
      · rw [hdelivered]
        dsimp only
        omega
      · rw [hdelivered]
        dsimp only
        omega
  | stopSending i code =>
    cases hstep
    refine ⟨hcredited, ?_⟩
    rw [World.signal, map_modify_of_eq]
    · exact hledger
    · intro r
      rfl
  | dropStop i =>
    cases hstep
    refine ⟨hcredited, ?_⟩
    rw [World.signal, map_modify_of_eq]
    · exact hledger
    · intro r
      rfl
  | extendCredit stream bytes =>
    cases hstep
    cases stream with
    | some s => exact ⟨hcredited, hledger⟩
    | none =>
      have hfits : w.credited + bytes ≤ w.delivered := hearned
      have hkept : (w.readers.map Reader.notified).map Reader.inHand = w.readers.map Reader.inHand := by
        simp [inHand_notified]
      constructor
      · exact hfits
      · have hwrap := Nat.mod_le (w.budget.bytes + bytes) (2 ^ 64)
        simp only [World.extendCredit, ReadBudget.add, World.delivered, hkept] at hwrap hfits hledger ⊢
        omega
  | closeEvents =>
    cases hstep
    exact ⟨hcredited, hledger⟩

/-- One reader, at the head of its loop. -/
def single (s : StreamId) (budget : ℕ) (sent : List Message) (credited : ℕ) : World :=
  ⟨⟨budget⟩, [⟨s, .checking, none, none⟩], true, sent, credited⟩

variable {allowed : World → Act → Prop} {s : StreamId} {budget credited : ℕ} {sent : List Message}

theorem reached_single (hall : ∀ w stream stoppable, allowed w (.spawnReader stream stoppable)) (s : StreamId) :
    Reached allowed (single s initialBudget [] 0) :=
  .step .start (hall .start s false) rfl

theorem reached_round {bytes : Bytes} (hall : ∀ w i move, move ≠ .charge → allowed w (.reader i move))
    (hcharges : allowed ⟨⟨budget⟩, [⟨s, .charging bytes, none, none⟩], true, sent, credited⟩ (.reader 0 .charge))
    (hbudget : budget ≠ 0) (hbytes : bytes.length ≤ readChunk)
    (h : Reached allowed (single s budget sent credited)) :
    Reached allowed (single s (budget - bytes.length) (sent ++ [.data s bytes false]) credited) := by
  have hcheck : Reached allowed ⟨⟨budget⟩, [⟨s, .reading, none, none⟩], true, sent, credited⟩ :=
    h.step (hall _ 0 .check (by simp)) (by simp [World.step, World.moveReader, single, Reader.move, hbudget])
  have hread : Reached allowed ⟨⟨budget⟩, [⟨s, .charging bytes, none, none⟩], true, sent, credited⟩ :=
    hcheck.step (hall _ 0 (.read (.chunk bytes)) (by simp))
      (by simp [World.step, World.moveReader, Reader.move, hbytes])
  have hcharge : Reached allowed
      ⟨⟨budget - bytes.length⟩, [⟨s, .handing bytes, none, none⟩], true, sent, credited⟩ :=
    hread.step hcharges (by simp [World.step, World.moveReader, Reader.move, ReadBudget.take])
  exact hcharge.step (hall _ 0 .hand (by simp)) (by simp [World.step, World.moveReader, Reader.move, single])

theorem reached_credit {bytes : ℕ} (hallowed : allowed (single s budget sent credited) (.extendCredit none bytes))
    (hbudget : budget + bytes < 2 ^ 64) (h : Reached allowed (single s budget sent credited)) :
    Reached allowed (single s (budget + bytes) sent (credited + bytes)) :=
  h.step hallowed (by
    simp only [World.step, World.extendCredit, ReadBudget.add, single, Nat.mod_eq_of_lt hbudget]
    rfl)

def stream0 : StreamId := ⟨0, zero_le_maxVarint⟩

def zeros (n : ℕ) : Bytes := List.replicate n 0

def chunks (lengths : List ℕ) : List Message := lengths.map fun n => .data stream0 (zeros n) false

theorem handed_chunks (lengths : List ℕ) : handed (chunks lengths) = lengths.sum := by
  simp [handed, chunks, handedBy, Function.comp_def, zeros]

/-- What rounds with chunks of those lengths leave of the budget, if each begins with some. -/
def spend : ℕ → List ℕ → Option ℕ
  | budget, [] => some budget
  | budget, n :: lengths => if budget = 0 then none else spend (budget - n) lengths

theorem reached_rounds (hall : ∀ w i move, allowed w (.reader i move)) {before lengths : List ℕ} {left : ℕ}
    (hlengths : ∀ n ∈ lengths, n ≤ readChunk) (hspend : spend budget lengths = some left)
    (h : Reached allowed (single stream0 budget (chunks before) credited)) :
    Reached allowed (single stream0 left (chunks (before ++ lengths)) credited) := by
  induction lengths generalizing budget before with
  | nil =>
    obtain rfl : budget = left := by simpa [spend] using hspend
    simpa using h
  | cons n lengths ih =>
    rw [spend] at hspend
    split at hspend
    · cases hspend
    · next hbudget =>
      have hlength : (zeros n).length = n := List.length_replicate
      have hfits : (zeros n).length ≤ readChunk := by
        rw [hlength]
        exact hlengths n (by simp)
      have hround := reached_round (fun w i move _ => hall w i move) (hall _ 0 .charge) hbudget hfits h
      rw [hlength] at hround
      have hchunks : chunks before ++ [.data stream0 (zeros n) false] = chunks (before ++ [n]) := by
        simp [chunks]
      rw [hchunks] at hround
      have hrest := ih (fun m hm => hlengths m (List.mem_cons_of_mem n hm)) hspend hround
      simpa using hrest

/-- The lengths of the chunks read before and after the layer returns all it was given. -/
def overshoot : List ℕ := [65536, 65536, 65536, 65535, 65536]

def overshootAgain : List ℕ := [65536, 65536, 65536, 65536, 65534, 65536]

theorem delivered_single : (single s budget sent credited).delivered = handed sent := rfl

theorem reached_overshoot : Reached Earned (single stream0 327679 (chunks overshoot) 327679) := by
  have hstart : Reached Earned (single stream0 initialBudget (chunks []) 0) :=
    reached_single (fun _ _ _ => trivial) stream0
  have hread : Reached Earned (single stream0 0 (chunks ([] ++ overshoot)) 0) :=
    reached_rounds (fun _ _ _ => trivial) (by decide) (by decide) hstart
  have hearned : Earned (single stream0 0 (chunks overshoot) 0) (.extendCredit none 327679) := by
    rw [Earned, delivered_single, handed_chunks]
    decide
  exact reached_credit hearned (by norm_num) hread

end Ngnet.QuinnReadBudget
