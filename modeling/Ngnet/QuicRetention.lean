import Std.Data.TreeMap.Lemmas
import Mathlib.Data.List.TakeWhile
import Mathlib.Data.List.Induction
import Mathlib.Data.List.Infix
import Ngnet.QmuxStreams

/-!
# Sent stream data, held until it is acknowledged

The crate `ngnet-quic`: `retain.rs`. What ngtcp2 accepted stays in place, chunk by chunk, until an
acknowledgement covers it or the stream is closed. A pointer handed to ngtcp2 together with its
length is the byte string it points at; that an address stays put is not said here. Offsets are
`u64` and wrap; an allocation beyond `isize::MAX` bytes panics, before anything was changed. The
stream identifiers of this crate are those of `QmuxStreams`.

`History` says what a sequence of operations has accepted on a stream, without looking at the
chunks; the theorems compare the two.
-/

namespace Ngnet.QuicRetention
open QmuxVarints QmuxStreams

def usizeMax : ℕ := 2 ^ 64 - 1

def isizeMax : ℕ := 2 ^ 63 - 1

/-! ## Buffers handed over by the caller -/

inductive Store
  | owned (buffer : Bytes)
  | erased (owner : Bytes)
  deriving DecidableEq, Repr

def Store.bytes : Store → Bytes
  | .owned buffer => buffer
  | .erased owner => owner

/-- A handle into a buffer. The constructors keep its bounds inside the buffer, which by the
contract of `from_owner` never changes. -/
structure OwnedBytes where
  store : Store
  start : ℕ
  stop : ℕ
  start_le : start ≤ stop
  stop_le : stop ≤ store.bytes.length
  deriving DecidableEq, Repr

namespace OwnedBytes

def new (bytes : Bytes) : OwnedBytes := ⟨.owned bytes, 0, bytes.length, Nat.zero_le _, le_rfl⟩

def fromOwner (owner : Bytes) : OwnedBytes := ⟨.erased owner, 0, owner.length, Nat.zero_le _, le_rfl⟩

def asSlice (bytes : OwnedBytes) : Bytes :=
  let all := bytes.store.bytes
  let stop := min bytes.stop all.length
  let start := min bytes.start stop
  (all.take stop).drop start

def len (bytes : OwnedBytes) : ℕ := bytes.asSlice.length

def isEmpty (bytes : OwnedBytes) : Bool := bytes.len == 0

theorem asSlice_eq (bytes : OwnedBytes) :
    bytes.asSlice = (bytes.store.bytes.take bytes.stop).drop bytes.start := by
  simp [asSlice, bytes.stop_le, bytes.start_le]

theorem len_eq (bytes : OwnedBytes) : bytes.len = bytes.stop - bytes.start := by
  simp [len, asSlice_eq, bytes.stop_le]

/-- Splits off the first `n` bytes: the head, and what is left in place. -/
def splitTo (bytes : OwnedBytes) (n : ℕ) : OwnedBytes × OwnedBytes :=
  have hn : bytes.start + min n bytes.len ≤ bytes.stop := by
    have hlen := bytes.len_eq
    have hstart := bytes.start_le
    omega
  (⟨bytes.store, bytes.start, bytes.start + min n bytes.len, Nat.le_add_right _ _, hn.trans bytes.stop_le⟩,
    ⟨bytes.store, bytes.start + min n bytes.len, bytes.stop, hn, bytes.stop_le⟩)

end OwnedBytes

/-! ## Chunks -/

inductive Payload
  | copied (data : Bytes)
  | owned (bytes : OwnedBytes)
  deriving DecidableEq, Repr

/-- `ptr_and_len`: the bytes that ngtcp2 is pointed at. -/
def Payload.slice : Payload → Bytes
  | .copied data => data
  | .owned bytes => bytes.asSlice

def Payload.len (payload : Payload) : ℕ := payload.slice.length

structure Chunk where
  data : Payload
  start : ℕ
  len : ℕ
  deriving DecidableEq, Repr

/-- `Chunk::end`: offset one past the last accepted byte. -/
def Chunk.stop (chunk : Chunk) : ℕ := (chunk.start + chunk.len) % 2 ^ 64

structure Stream where
  chunks : List Chunk := []
  nextOffset : ℕ := 0
  deriving DecidableEq, Repr

structure Retained where
  streams : Std.TreeMap ℕ Stream := {}

namespace Retained

/-- `entry(..).or_default()`. -/
def entry (r : Retained) (stream : StreamId) : Stream := (r.streams[stream.val]?).getD {}

def insert (r : Retained) (stream : StreamId) (s : Stream) : Retained :=
  { r with streams := r.streams.insert stream.val s }

/-- The loop that joins the ranges, up to `total` bytes. -/
def joinRanges (total : ℕ) : List Bytes → Bytes → Bytes
  | [], buffer => buffer
  | range :: rest, buffer =>
    let remaining := total - buffer.length
    if remaining = 0 then buffer
    else joinRanges total rest (buffer ++ range.take (min range.length remaining))

def offered (ranges : List Bytes) : ℕ :=
  ranges.foldl (fun total range => min (total + range.length) usizeMax) 0

/-- What ngtcp2 is pointed at, and whether that is the complete offer; `none` is the panic of an
allocation that is too large. -/
def stageManyBounded (r : Retained) (stream : StreamId) (ranges : List Bytes) (limit : ℕ) :
    Option ((Option Bytes × Bool) × Retained) :=
  let offered := offered ranges
  let total := min offered limit
  if total = 0 then some ((none, offered == 0), r)
  else if isizeMax < total then none
  else
    let entry := r.entry stream
    let chunk : Chunk := ⟨.copied (joinRanges total ranges []), entry.nextOffset, total⟩
    some ((some chunk.data.slice, total == offered),
      r.insert stream { entry with chunks := entry.chunks ++ [chunk] })

def stageOwned (r : Retained) (stream : StreamId) (bytes : OwnedBytes) : Option Bytes × Retained :=
  let total := bytes.len
  if total = 0 then (none, r)
  else
    let entry := r.entry stream
    let chunk : Chunk := ⟨.owned bytes, entry.nextOffset, total⟩
    (some chunk.data.slice, r.insert stream { entry with chunks := entry.chunks ++ [chunk] })

def commit (r : Retained) (stream : StreamId) (accepted : ℕ) : Retained :=
  match r.streams[stream.val]? with
  | none => r
  | some entry =>
    match entry.chunks.getLast? with
    | none => r
    | some chunk =>
      if accepted = 0 then r.insert stream { entry with chunks := entry.chunks.dropLast }
      else
        let chunk := { chunk with len := min accepted chunk.data.len }
        r.insert stream ⟨entry.chunks.dropLast ++ [chunk], chunk.stop⟩

def acknowledge (r : Retained) (stream : StreamId) (offset len : ℕ) : Retained :=
  match r.streams[stream.val]? with
  | none => r
  | some entry =>
    let ackedTo := min (offset + len) (2 ^ 64 - 1)
    r.insert stream { entry with chunks := entry.chunks.dropWhile fun front => front.stop ≤ ackedTo }

def forget (r : Retained) (stream : StreamId) : Retained :=
  { r with streams := r.streams.erase stream.val }

end Retained

/-! ## Runs -/

/-- What is offered to one write, on the borrowing or the owning path. -/
inductive Offer
  | borrowed (ranges : List Bytes) (limit : ℕ)
  | owned (bytes : OwnedBytes)
  deriving DecidableEq, Repr

def Retained.stage (r : Retained) (stream : StreamId) : Offer → Option (Option Bytes × Retained)
  | .borrowed ranges limit => (r.stageManyBounded stream ranges limit).map fun p => (p.1.1, p.2)
  | .owned bytes => some (r.stageOwned stream bytes)

/-- An operation on the retained data. A write stages and, when something was staged, commits what
ngtcp2 accepted. -/
inductive Op
  | write (stream : StreamId) (offer : Offer) (accepted : ℕ)
  | acknowledge (stream : StreamId) (offset len : ℕ)
  | forget (stream : StreamId)
  deriving DecidableEq, Repr

def Op.stream : Op → StreamId
  | .write stream _ _ => stream
  | .acknowledge stream _ _ => stream
  | .forget stream => stream

def Op.step : Op → Retained → Retained
  | .write stream offer accepted, r =>
    match r.stage stream offer with
    | none => r
    | some (none, r) => r
    | some (some _, r) => r.commit stream accepted
  | .acknowledge stream offset len, r => r.acknowledge stream offset len
  | .forget stream, r => r.forget stream

def reached (ops : List Op) : Retained := ops.foldl (fun r op => op.step r) {}

/-! ## What was accepted -/

/-- What a write hands to ngtcp2. -/
def Offer.payload : Offer → Payload
  | .borrowed ranges limit =>
    .copied (if min ranges.flatten.length limit ≤ isizeMax then ranges.flatten.take limit else [])
  | .owned bytes => .owned bytes

def Offer.staged (offer : Offer) : Bytes := offer.payload.slice

/-- ngtcp2 accepts no more than it was pointed at. -/
def Op.Legal : Op → Prop
  | .write _ offer accepted => accepted ≤ offer.staged.length
  | _ => True

/-- The bytes accepted on a stream behind `op`, given those accepted before it. -/
def accepts (id : StreamId) (bytes : Bytes) : Op → Bytes
  | .write stream offer accepted => if stream = id then bytes ++ offer.staged.take accepted else bytes
  | .acknowledge _ _ _ => bytes
  | .forget stream => if stream = id then [] else bytes

/-- The bytes accepted on a stream since it was last forgotten. -/
def acceptedBytes (id : StreamId) (ops : List Op) : Bytes := ops.foldl (accepts id) []

/-- The chunks follow on each other from `base` to `next`. -/
def Contiguous : ℕ → List Chunk → ℕ → Prop
  | base, [], next => base = next
  | base, chunk :: rest, next => chunk.start = base ∧ Contiguous (base + chunk.len) rest next

theorem contiguous_append {base next : ℕ} {chunks more : List Chunk} :
    Contiguous base (chunks ++ more) next ↔ ∃ mid, Contiguous base chunks mid ∧ Contiguous mid more next := by
  induction chunks generalizing base with
  | nil => simp [Contiguous]
  | cons chunk rest ih => simp [Contiguous, ih, and_assoc]

theorem Contiguous.suffix {base next : ℕ} {chunks more : List Chunk} (h : Contiguous base chunks next)
    (hsuffix : more <:+ chunks) : ∃ base, Contiguous base more next := by
  obtain ⟨front, rfl⟩ := hsuffix
  obtain ⟨mid, -, hmore⟩ := contiguous_append.mp h
  exact ⟨mid, hmore⟩

/-! ## Staging -/

theorem offered_eq (ranges : List Bytes) : Retained.offered ranges = min ranges.flatten.length usizeMax := by
  have hfold (total : ℕ) : ranges.foldl (fun total range => min (total + range.length) usizeMax) (min total usizeMax) =
      min (total + ranges.flatten.length) usizeMax := by
    induction ranges generalizing total with
    | nil => simp
    | cons range rest ih =>
      have hadd : min (min total usizeMax + range.length) usizeMax = min (total + range.length) usizeMax := by omega
      rw [List.foldl_cons, hadd, ih]
      simp [Nat.add_assoc]
  simpa [Retained.offered] using hfold 0

theorem joinRanges_eq (total : ℕ) (ranges : List Bytes) (buffer : Bytes) :
    Retained.joinRanges total ranges buffer = buffer ++ ranges.flatten.take (total - buffer.length) := by
  induction ranges generalizing buffer with
  | nil => simp [Retained.joinRanges]
  | cons range rest ih =>
    rw [Retained.joinRanges]
    by_cases hfull : total - buffer.length = 0
    · simp [hfull]
    · rw [if_neg hfull, ih, List.flatten_cons, List.take_append]
      have hleft : total - (buffer ++ range.take (min range.length (total - buffer.length))).length =
          total - buffer.length - range.length := by
        simp
        omega
      rw [hleft, List.append_assoc]
      congr 2
      rcases Nat.le_total range.length (total - buffer.length) with hle | hle
      · rw [min_eq_left hle, List.take_length, List.take_of_length_le hle]
      · rw [min_eq_right hle]

section Stage
variable {r : Retained} {stream id : StreamId}

theorem lookup_insert {s : Stream} :
    (r.insert stream s).streams[id.val]? = if stream = id then some s else r.streams[id.val]? := by
  have hval : stream.val = id.val ↔ stream = id := by
    cases stream
    cases id
    simp
  simp [Retained.insert, Std.TreeMap.getElem?_insert, hval]

theorem entry_insert {s : Stream} : (r.insert stream s).entry id = if stream = id then s else r.entry id := by
  rw [Retained.entry, lookup_insert]
  split <;> rfl

/-- The stream with the chunk of a write at its end, as it is on offer. -/
def offering (r : Retained) (stream : StreamId) (offer : Offer) : Retained :=
  r.insert stream { r.entry stream with
    chunks := (r.entry stream).chunks ++ [⟨offer.payload, (r.entry stream).nextOffset, offer.staged.length⟩] }

theorem staged_borrowed {ranges : List Bytes} {limit : ℕ} (hfits : min ranges.flatten.length limit ≤ isizeMax) :
    (Offer.borrowed ranges limit).staged = ranges.flatten.take limit := by
  rw [Offer.staged, Offer.payload, if_pos hfits, Payload.slice]

theorem stageManyBounded_cases (r : Retained) (stream : StreamId) (ranges : List Bytes) (limit : ℕ) :
    let offer := Offer.borrowed ranges limit
    (r.stageManyBounded stream ranges limit = none ∧ offer.staged = []) ∨
    (offer.staged = [] ∧
      r.stageManyBounded stream ranges limit = some ((none, ranges.flatten == []), r)) ∨
    (offer.staged ≠ [] ∧ r.stageManyBounded stream ranges limit =
      some ((some offer.staged, offer.staged == ranges.flatten), offering r stream offer)) := by
  intro offer
  have hoffered := offered_eq ranges
  have hlimits : isizeMax < usizeMax := by decide
  rw [Retained.stageManyBounded]
  by_cases hzero : min (Retained.offered ranges) limit = 0
  · have hstaged : offer.staged = [] := by
      rw [staged_borrowed (by omega), List.take_eq_nil_iff]
      rw [hoffered] at hzero
      have hpos : 0 < usizeMax := by decide
      rcases Nat.eq_zero_or_pos limit with hlimit | hlimit
      · exact .inl hlimit
      · exact .inr (List.eq_nil_of_length_eq_zero (by omega))
    have hempty : (Retained.offered ranges == 0) = (ranges.flatten == []) := by
      rw [Bool.eq_iff_iff, beq_iff_eq, beq_iff_eq, hoffered, ← List.length_eq_zero_iff]
      have hpos : 0 < usizeMax := by decide
      omega
    exact .inr (.inl ⟨hstaged, by simp [hzero, hempty]⟩)
  · by_cases hlarge : isizeMax < min (Retained.offered ranges) limit
    · have hstaged : offer.staged = [] := by
        have hlarge' : ¬ min ranges.flatten.length limit ≤ isizeMax := by omega
        simp only [offer, Offer.staged, Offer.payload, Payload.slice, if_neg hlarge']
      exact .inl ⟨by simp [hzero, hlarge], hstaged⟩
    · have hfits : min ranges.flatten.length limit ≤ isizeMax := by omega
      have htotal : min (Retained.offered ranges) limit = min ranges.flatten.length limit := by omega
      have hstaged : offer.staged = ranges.flatten.take limit := staged_borrowed hfits
      have hlength : offer.staged.length = min (Retained.offered ranges) limit := by
        rw [hstaged, List.length_take]
        omega
      have hjoined : Retained.joinRanges (min (Retained.offered ranges) limit) ranges [] = offer.staged := by
        rw [joinRanges_eq, hstaged, htotal, List.nil_append, List.length_nil, Nat.sub_zero, List.take_eq_take_iff]
        omega
      have hpayload : offer.payload = .copied offer.staged := by
        rw [hstaged]
        simp only [offer, Offer.payload, if_pos hfits]
      have hcomplete : (min (Retained.offered ranges) limit == Retained.offered ranges) =
          (offer.staged == ranges.flatten) := by
        rw [Bool.eq_iff_iff, beq_iff_eq, beq_iff_eq, hstaged]
        constructor
        · intro htotal'
          exact List.take_of_length_le (by omega)
        · intro htake
          have hshort := congrArg List.length htake
          rw [List.length_take] at hshort
          omega
      refine .inr (.inr ⟨fun hnil => ?_, ?_⟩)
      · rw [hnil] at hlength
        simp at hlength
        omega
      · rw [if_neg hzero, if_neg hlarge, offering, hlength, hpayload, hjoined, hcomplete]
        rfl

theorem stageOwned_cases (r : Retained) (stream : StreamId) (bytes : OwnedBytes) :
    let offer := Offer.owned bytes
    (offer.staged = [] ∧ r.stageOwned stream bytes = (none, r)) ∨
    (offer.staged ≠ [] ∧ r.stageOwned stream bytes = (some offer.staged, offering r stream offer)) := by
  intro offer
  have hstaged : offer.staged = bytes.asSlice := rfl
  rw [Retained.stageOwned, OwnedBytes.len, hstaged]
  by_cases hempty : bytes.asSlice = []
  · exact .inl ⟨hempty, by simp [hempty]⟩
  · refine .inr ⟨hempty, ?_⟩
    rw [if_neg (by simpa using hempty)]
    rfl

theorem stage_cases (r : Retained) (stream : StreamId) (offer : Offer) :
    (offer.staged = [] ∧ (r.stage stream offer = none ∨ r.stage stream offer = some (none, r))) ∨
    (offer.staged ≠ [] ∧ r.stage stream offer = some (some offer.staged, offering r stream offer)) := by
  cases offer with
  | borrowed ranges limit =>
    rw [Retained.stage]
    rcases stageManyBounded_cases r stream ranges limit with ⟨h, hnil⟩ | ⟨hnil, h⟩ | ⟨hstaged, h⟩
    · exact .inl ⟨hnil, .inl (by rw [h]; rfl)⟩
    · exact .inl ⟨hnil, .inr (by rw [h]; rfl)⟩
    · exact .inr ⟨hstaged, by rw [h]; rfl⟩
  | owned bytes =>
    rw [Retained.stage]
    rcases stageOwned_cases r stream bytes with ⟨hnil, h⟩ | ⟨hstaged, h⟩
    · exact .inl ⟨hnil, .inr (by rw [h])⟩
    · exact .inr ⟨hstaged, by rw [h]⟩

theorem commit_offering {offer : Offer} {accepted : ℕ} (hle : accepted ≤ offer.staged.length) :
    (offering r stream offer).commit stream accepted = (offering r stream offer).insert stream
      (if accepted = 0 then r.entry stream
      else ⟨(r.entry stream).chunks ++ [⟨offer.payload, (r.entry stream).nextOffset, accepted⟩],
        ((r.entry stream).nextOffset + accepted) % 2 ^ 64⟩) := by
  rw [Retained.commit]
  have hlookup : (offering r stream offer).streams[stream.val]? = some { r.entry stream with
      chunks := (r.entry stream).chunks ++ [⟨offer.payload, (r.entry stream).nextOffset, offer.staged.length⟩] } := by
    rw [offering, lookup_insert, if_pos rfl]
  rw [hlookup]
  have hmin : min accepted offer.payload.len = accepted := min_eq_left hle
  by_cases hzero : accepted = 0
  · simp [hzero]
  · simp [hzero, hmin, Chunk.stop]

end Stage

/-! ## One operation -/

section Step
variable {r : Retained} {id : StreamId}

theorem step_write {offer : Offer} {accepted : ℕ} (hle : accepted ≤ offer.staged.length) :
    ((Op.write id offer accepted).step r).entry id =
      if accepted = 0 then r.entry id
      else ⟨(r.entry id).chunks ++ [⟨offer.payload, (r.entry id).nextOffset, accepted⟩],
        ((r.entry id).nextOffset + accepted) % 2 ^ 64⟩ := by
  rw [Op.step]
  rcases stage_cases r id offer with ⟨hnil, h | h⟩ | ⟨-, h⟩
  · rw [hnil] at hle
    rw [h, if_pos (Nat.le_zero.mp hle)]
  · rw [hnil] at hle
    rw [h, if_pos (Nat.le_zero.mp hle)]
  · rw [h]
    dsimp only
    rw [commit_offering hle, entry_insert, if_pos rfl]

theorem step_acknowledge {offset len : ℕ} :
    ((Op.acknowledge id offset len).step r).entry id = { r.entry id with
      chunks := (r.entry id).chunks.dropWhile fun front => front.stop ≤ min (offset + len) (2 ^ 64 - 1) } := by
  rw [Op.step, Retained.acknowledge]
  simp only [Retained.entry]
  cases h : r.streams[id.val]? with
  | none =>
    simp only [h]
    rfl
  | some entry =>
    simp only [lookup_insert, if_pos]
    rfl

theorem step_forget : ((Op.forget id).step r).entry id = {} := by
  simp [Op.step, Retained.forget, Retained.entry]

theorem step_other {op : Op} (hother : op.stream ≠ id) : (op.step r).streams[id.val]? = r.streams[id.val]? := by
  cases op with
  | write stream offer accepted =>
    change stream ≠ id at hother
    have hoffering : (offering r stream offer).streams[id.val]? = r.streams[id.val]? := by
      rw [offering, lookup_insert, if_neg hother]
    rw [Op.step]
    rcases stage_cases r stream offer with ⟨-, h | h⟩ | ⟨-, h⟩
    · rw [h]
    · rw [h]
    · rw [h]
      dsimp only
      rw [Retained.commit]
      split
      · exact hoffering
      · split
        · exact hoffering
        · split <;> rw [lookup_insert, if_neg hother, hoffering]
  | acknowledge stream offset len =>
    change stream ≠ id at hother
    rw [Op.step, Retained.acknowledge]
    split
    · rfl
    · rw [lookup_insert, if_neg hother]
  | forget stream =>
    have hval : stream.val ≠ id.val := by
      change stream ≠ id at hother
      cases stream
      cases id
      simpa using hother
    simp [Op.step, Retained.forget, Std.TreeMap.getElem?_erase, hval]

theorem entry_other {op : Op} (hother : op.stream ≠ id) : (op.step r).entry id = r.entry id := by
  rw [Retained.entry, Retained.entry, step_other hother]

/-- The chunks lie one behind the other up to the next offset, and hold what was accepted. -/
structure Exact (bytes : Bytes) (s : Stream) : Prop where
  contiguous : ∃ base, Contiguous base s.chunks s.nextOffset
  next : s.nextOffset = bytes.length
  held : ∀ chunk ∈ s.chunks, chunk.start + chunk.len ≤ bytes.length ∧
    ∀ i < chunk.len, chunk.data.slice[i]? = bytes[chunk.start + i]?

theorem exact_empty : Exact [] {} := by
  constructor
  · exact ⟨0, rfl⟩
  · rfl
  · simp

theorem Exact.append {bytes : Bytes} {s : Stream} {payload : Payload} {accepted : ℕ} (h : Exact bytes s)
    (hle : accepted ≤ payload.slice.length) :
    Exact (bytes ++ payload.slice.take accepted)
      ⟨s.chunks ++ [⟨payload, s.nextOffset, accepted⟩], s.nextOffset + accepted⟩ := by
  have hnext := h.next
  constructor
  · obtain ⟨base, hbase⟩ := h.contiguous
    exact ⟨base, contiguous_append.mpr ⟨s.nextOffset, hbase, rfl, rfl⟩⟩
  · simp [hnext, hle]
  · intro chunk hchunk
    rcases List.mem_append.mp hchunk with hold | hnew
    · obtain ⟨hstop, hvalues⟩ := h.held chunk hold
      constructor
      · simp
        omega
      · intro i hi
        rw [hvalues i hi, List.getElem?_append_left (by omega)]
    · rw [List.mem_singleton.mp hnew]
      constructor
      · simp [hnext, hle]
      · intro i hi
        change i < accepted at hi
        simp only [hnext]
        rw [List.getElem?_append_right (by omega), List.getElem?_take, if_pos (by omega), Nat.add_sub_cancel_left]

theorem Exact.suffix {bytes : Bytes} {s : Stream} {chunks : List Chunk} (h : Exact bytes s)
    (hsuffix : chunks <:+ s.chunks) : Exact bytes { s with chunks := chunks } := by
  obtain ⟨base, hbase⟩ := h.contiguous
  constructor
  · exact hbase.suffix hsuffix
  · exact h.next
  · intro chunk hchunk
    exact h.held chunk (hsuffix.subset hchunk)

theorem exact_step {bytes : Bytes} {op : Op} (legal : op.Legal) (hquic : (accepts id bytes op).length < 2 ^ 64)
    (h : Exact bytes (r.entry id)) : Exact (accepts id bytes op) ((op.step r).entry id) := by
  by_cases hother : op.stream = id
  · subst hother
    cases op with
    | write stream offer accepted =>
      change accepted ≤ offer.staged.length at legal
      change Exact bytes (r.entry stream) at h
      change Exact (accepts stream bytes _) (((Op.write stream offer accepted).step r).entry stream)
      rw [step_write legal]
      rw [Op.stream, accepts, if_pos rfl] at hquic
      rw [accepts, if_pos rfl]
      by_cases hzero : accepted = 0
      · simpa [hzero] using h
      · have hlt : (r.entry stream).nextOffset + accepted < 2 ^ 64 := by
          have hnext : (r.entry stream).nextOffset = bytes.length := h.next
          rw [List.length_append, List.length_take] at hquic
          omega
        rw [if_neg hzero, Nat.mod_eq_of_lt hlt]
        exact Exact.append h legal
    | acknowledge stream offset len =>
      change Exact bytes (((Op.acknowledge stream offset len).step r).entry stream)
      rw [step_acknowledge]
      exact h.suffix (List.dropWhile_suffix _)
    | forget stream =>
      change Exact (accepts stream bytes (.forget stream)) (((Op.forget stream).step r).entry stream)
      rw [step_forget, accepts, if_pos rfl]
      exact exact_empty
  · have hsame : accepts id bytes op = bytes := by
      cases op with
      | write stream offer accepted => exact if_neg hother
      | acknowledge stream offset len => rfl
      | forget stream => exact if_neg hother
    rw [hsame, entry_other hother]
    exact h

theorem dropped_step {op : Op} {chunk : Chunk} (legal : op.Legal) (hheld : chunk ∈ (r.entry id).chunks)
    (hgone : chunk ∉ ((op.step r).entry id).chunks) :
    op = .forget id ∨ ∃ offset len, op = .acknowledge id offset len ∧ chunk.stop ≤ offset + len := by
  by_cases hother : op.stream = id
  · subst hother
    cases op with
    | write stream offer accepted =>
      change chunk ∉ (((Op.write stream offer accepted).step r).entry stream).chunks at hgone
      rw [step_write legal] at hgone
      split at hgone
      · exact absurd hheld hgone
      · exact absurd (List.mem_append_left _ hheld) hgone
    | acknowledge stream offset len =>
      change chunk ∉ (((Op.acknowledge stream offset len).step r).entry stream).chunks at hgone
      rw [step_acknowledge] at hgone
      change chunk ∈ (r.entry stream).chunks at hheld
      let covered (front : Chunk) : Bool := front.stop ≤ min (offset + len) (2 ^ 64 - 1)
      have hsplit : chunk ∈ (r.entry stream).chunks.takeWhile covered ++ (r.entry stream).chunks.dropWhile covered := by
        rw [List.takeWhile_append_dropWhile]
        exact hheld
      have hcovered : covered chunk = true :=
        List.mem_takeWhile_imp ((List.mem_append.mp hsplit).resolve_right hgone)
      have hstop := of_decide_eq_true hcovered
      exact .inr ⟨offset, len, rfl, by omega⟩
    | forget stream => exact .inl rfl
  · rw [entry_other hother] at hgone
    exact absurd hheld hgone

end Step

/-! ## Every run -/

section Runs
variable {id : StreamId}

theorem reached_append (ops more : List Op) : reached (ops ++ more) = more.foldl (fun r op => op.step r) (reached ops) := by
  rw [reached, List.foldl_append, reached]

theorem reached_concat (ops : List Op) (op : Op) : reached (ops ++ [op]) = op.step (reached ops) := by
  rw [reached_append]
  rfl

theorem acceptedBytes_concat (ops : List Op) (op : Op) :
    acceptedBytes id (ops ++ [op]) = accepts id (acceptedBytes id ops) op := by
  rw [acceptedBytes, List.foldl_append]
  rfl

/-- Every operation is legal, and no stream carries more than its offsets can number. -/
structure Orderly (ops : List Op) : Prop where
  legal : ∀ op ∈ ops, op.Legal
  numbered : ∀ id before, before <+: ops → (acceptedBytes id before).length < 2 ^ 64

theorem Orderly.past {ops more : List Op} (h : Orderly (ops ++ more)) : Orderly ops := by
  constructor
  · intro op hop
    exact h.legal op (List.mem_append_left _ hop)
  · intro id before hbefore
    exact h.numbered id before (hbefore.trans (List.prefix_append _ _))

theorem exact_run {ops : List Op} (h : Orderly ops) : Exact (acceptedBytes id ops) ((reached ops).entry id) := by
  induction ops using List.reverseRecOn with
  | nil => exact exact_empty
  | append_singleton ops op ih =>
    have hnumbered := h.numbered id _ List.prefix_rfl
    rw [acceptedBytes_concat] at hnumbered ⊢
    rw [reached_concat]
    exact exact_step (h.legal op (by simp)) hnumbered (ih h.past)

theorem held_run {ops more : List Op} {chunk : Chunk} (h : Orderly (ops ++ more))
    (hheld : chunk ∈ ((reached ops).entry id).chunks) (hkept : .forget id ∉ more)
    (huncovered : ∀ offset len, .acknowledge id offset len ∈ more → offset + len < chunk.stop) :
    chunk ∈ ((reached (ops ++ more)).entry id).chunks := by
  induction more using List.reverseRecOn with
  | nil => simpa using hheld
  | append_singleton more op ih =>
    rw [← List.append_assoc] at h ⊢
    have hbefore := ih h.past (fun hmem => hkept (List.mem_append_left _ hmem))
      fun offset len hmem => huncovered offset len (List.mem_append_left _ hmem)
    rw [reached_concat]
    by_contra hgone
    rcases dropped_step (h.legal op (by simp)) hbefore hgone with rfl | ⟨offset, len, rfl, hcovered⟩
    · exact hkept (by simp)
    · have huncovered := huncovered offset len (by simp)
      omega

theorem accepting_write {ops : List Op} {i : ℕ} {byte : UInt8} (h : (acceptedBytes id ops)[i]? = some byte) :
    ∃ before offer accepted after, ops = before ++ .write id offer accepted :: after ∧ .forget id ∉ after ∧
      (acceptedBytes id before).length ≤ i ∧ i < (acceptedBytes id before).length + accepted := by
  induction ops using List.reverseRecOn with
  | nil => simp [acceptedBytes] at h
  | append_singleton ops op ih =>
    have hearlier (hbyte : (acceptedBytes id ops)[i]? = some byte) (hop : op ≠ .forget id) :
        ∃ before offer accepted after, ops ++ [op] = before ++ .write id offer accepted :: after ∧
          .forget id ∉ after ∧ (acceptedBytes id before).length ≤ i ∧
          i < (acceptedBytes id before).length + accepted := by
      obtain ⟨before, offer, accepted, after, rfl, hkept, hlo, hhi⟩ := ih hbyte
      refine ⟨before, offer, accepted, after ++ [op], by simp, ?_, hlo, hhi⟩
      simpa [hkept] using fun heq => hop heq.symm
    rw [acceptedBytes_concat] at h
    cases op with
    | write stream offer accepted =>
      by_cases hstream : stream = id
      · subst hstream
        rw [accepts, if_pos rfl] at h
        by_cases hi : i < (acceptedBytes stream ops).length
        · rw [List.getElem?_append_left hi] at h
          exact hearlier h nofun
        · have hlt := (List.getElem?_eq_some_iff.mp h).1
          rw [List.length_append, List.length_take] at hlt
          exact ⟨ops, offer, accepted, [], rfl, by simp, by omega, by omega⟩
      · rw [accepts, if_neg hstream] at h
        exact hearlier h nofun
    | acknowledge stream offset len => exact hearlier h nofun
    | forget stream =>
      by_cases hstream : stream = id
      · rw [accepts, if_pos hstream] at h
        simp at h
      · rw [accepts, if_neg hstream] at h
        exact hearlier h fun heq => hstream (Op.forget.inj heq)

end Runs

/-- Retention is exact in every state a run reaches. The hypothesis on numbers is QUIC's: ngtcp2
accepts no byte past offset `2 ^ 62`. -/
theorem retention_exact (ops : List Op) (h : Orderly ops) :
    (∀ id, ∃ base, Contiguous base ((reached ops).entry id).chunks ((reached ops).entry id).nextOffset) ∧
    (∀ id, ((reached ops).entry id).nextOffset = (acceptedBytes id ops).length) ∧
    (∀ id i byte, (acceptedBytes id ops)[i]? = some byte →
      ∃ before offer accepted after, ops = before ++ .write id offer accepted :: after ∧ .forget id ∉ after ∧
        let start := (acceptedBytes id before).length
        start ≤ i ∧ i < start + accepted ∧
        ((∀ offset len, .acknowledge id offset len ∈ after → offset + len < start + accepted) →
          ∃ chunk ∈ ((reached ops).entry id).chunks, chunk.start = start ∧ chunk.len = accepted ∧
            chunk.data.slice[i - start]? = some byte)) ∧
    (∀ before op after id chunk, ops = before ++ op :: after →
      chunk ∈ ((reached before).entry id).chunks → chunk ∉ ((op.step (reached before)).entry id).chunks →
        op = .forget id ∨ ∃ offset len, op = .acknowledge id offset len ∧ chunk.start + chunk.len ≤ offset + len) ∧
    (∀ before id offer accepted after staged r, ops = before ++ .write id offer accepted :: after →
      (reached before).stage id offer = some (some staged, r) →
        ∃ own, (r.entry id).chunks = ((reached before).entry id).chunks ++ [own] ∧
          ((r.commit id accepted).entry id).chunks =
            ((reached before).entry id).chunks ++ if accepted = 0 then [] else [{ own with len := accepted }]) ∧
    (∀ before op after id, ops = before ++ op :: after → op.stream ≠ id →
      (op.step (reached before)).streams[id.val]? = (reached before).streams[id.val]?) := by
  have hstop (before more : List Op) (hsplit : ops = before ++ more) (id : StreamId) (chunk : Chunk)
      (hheld : chunk ∈ ((reached before).entry id).chunks) : chunk.stop = chunk.start + chunk.len := by
    subst hsplit
    have hle := ((exact_run h.past).held chunk hheld).1
    have hlt := h.numbered id before (List.prefix_append _ _)
    exact Nat.mod_eq_of_lt (by omega)
  refine ⟨fun id => (exact_run h).contiguous, fun id => (exact_run h).next, ?_, ?_, ?_, ?_⟩
  · intro id i byte hbyte
    obtain ⟨before, offer, accepted, after, hsplit, hkept, hlo, hhi⟩ := accepting_write hbyte
    refine ⟨before, offer, accepted, after, hsplit, hkept, hlo, hhi, fun huncovered => ?_⟩
    have hops : ops = (before ++ [.write id offer accepted]) ++ after := by simp [hsplit]
    have hlegal : accepted ≤ offer.staged.length := h.legal (.write id offer accepted) (by simp [hsplit])
    have hbefore : Exact (acceptedBytes id before) ((reached before).entry id) := by
      rw [hsplit] at h
      exact exact_run h.past
    let chunk : Chunk := ⟨offer.payload, (acceptedBytes id before).length, accepted⟩
    have hnew : chunk ∈ ((reached (before ++ [.write id offer accepted])).entry id).chunks := by
      rw [reached_concat, step_write hlegal, if_neg (by omega)]
      simp [chunk, hbefore.next]
    have hheld : chunk ∈ ((reached ops).entry id).chunks := by
      have horderly := h
      rw [hops] at horderly ⊢
      apply held_run horderly hnew hkept
      intro offset len hmem
      rw [hstop _ after hops id chunk hnew]
      exact huncovered offset len hmem
    refine ⟨chunk, hheld, rfl, rfl, ?_⟩
    have hvalue := ((exact_run h).held chunk hheld).2 (i - (acceptedBytes id before).length) (by dsimp only [chunk]; omega)
    rw [hvalue, ← hbyte]
    congr 1
    dsimp only [chunk]
    omega
  · intro before op after id chunk hsplit hheld hgone
    have hlegal : op.Legal := h.legal op (by simp [hsplit])
    rw [← hstop before (op :: after) hsplit id chunk hheld]
    exact dropped_step hlegal hheld hgone
  · intro before id offer accepted after staged r hsplit hstage
    have hlegal : accepted ≤ offer.staged.length := h.legal (.write id offer accepted) (by simp [hsplit])
    rcases stage_cases (reached before) id offer with ⟨-, hstage' | hstage'⟩ | ⟨-, hstage'⟩
    · rw [hstage'] at hstage
      cases hstage
    · rw [hstage'] at hstage
      cases hstage
    · rw [hstage'] at hstage
      cases hstage
      refine ⟨_, by rw [offering, entry_insert, if_pos rfl], ?_⟩
      rw [commit_offering hlegal, entry_insert, if_pos rfl]
      split <;> simp
  · intro before op after id _ hother
    exact step_other hother

/-- Two writes, of which the first is acknowledged twice. -/
theorem retention_exact_first_acknowledged :
    let id : StreamId := ⟨4, by decide⟩
    let ops : List Op := [.write id (.borrowed [[1, 2], [3]] 2) 2, .write id (.owned (.new [3])) 1,
      .acknowledge id 0 2, .acknowledge id 1 1]
    ((reached ops).entry id).chunks = [⟨.owned (.new [3]), 2, 1⟩] ∧ acceptedBytes id ops = [1, 2, 3] ∧
      ∃ base, Contiguous base ((reached ops).entry id).chunks ((reached ops).entry id).nextOffset := by
  intro id ops
  have hlegal : ∀ op ∈ ops, op.Legal := by
    simp only [ops, List.forall_mem_cons, Op.Legal, List.not_mem_nil, false_implies, implies_true, and_true]
    decide
  have hnumbered (other : StreamId) (before : List Op) (hbefore : before <+: ops) :
      (acceptedBytes other before).length < 2 ^ 64 := by
    rw [← List.mem_inits] at hbefore
    by_cases hother : id = other
    · subst hother
      revert before
      decide
    · have hnone (before : List Op) (hin : before ∈ ops.inits) : acceptedBytes other before = [] := by
        simp only [ops, List.inits, List.mem_cons, List.map_cons, List.map_nil, List.not_mem_nil, or_false] at hin
        rcases hin with rfl | rfl | rfl | rfl | rfl <;> simp [acceptedBytes, accepts, hother]
      simp [hnone before hbefore]
  refine ⟨by decide +kernel, by decide, (retention_exact ops ⟨hlegal, hnumbered⟩).1 id⟩

end Ngnet.QuicRetention
