import Mathlib.Algebra.BigOperators.Group.List.Basic
import Mathlib.Order.ConditionallyCompleteLattice.Basic
import Mathlib.Order.Lattice.Nat
import Ngnet.Http2BodyBridges
import Ngnet.Http2Drains

/-!
# How long a flush of an HTTP/2 connection takes

A flush of the driver of the crate `ngnet-h2` asks its session for blocks until there are none; the drains that write
them out take the blocks of a whole flush, a `Pass`, from `Http2Drains`. Here is where a pass comes from: `send_into`
of `session.rs` over the bodies of `Http2BodyBridges`.

libnghttp2 is assumed to write out what is queued, and then to consult the bodies of the streams that flow control
lets send, in any order: `order` says which of them is next. A consultation that ends or defers a body takes the
stream out of it until the driver puts it back. A body that gives no octets and no end is framed as an empty `DATA`
frame and consulted again; a frame whose payload is handed over goes through `send_data`, and the same call goes on. A
window below zero counts as zero.

A flush may fail to end only through a body that comes to yield nothing but empty data frames before flow control
stops it being consulted.
-/

namespace Ngnet.Http2FlushBounds
open QmuxVarints Http2BodyBridges
open Http2Drains (Pass)
open Http3BodyPulls (Frame PollFrame)

variable {ε : Type}

/-! ## The session -/

/-- A stream whose body may be consulted; `noCopy` where its payload is handed over. -/
structure Stream (ε : Type) where
  id : ℕ
  window : ℕ
  noCopy : Bool
  entry : BodyEntry ε

structure Session (ε : Type) where
  queued : List { frame : Bytes // frame ≠ [] } := []
  streams : List (Stream ε)
  window : ℕ
  maxFrame : ℕ
  maxFrame_pos : 0 < maxFrame
  order : ℕ → ℕ
  consulted : ℕ := 0

/-- What comes of one step of the session. -/
inductive Piece
  | block (bytes : Bytes) (nonempty : bytes ≠ [])
  | record (record : Http2Drains.SendRecord)
  | silent
  | failed

def octetsOfId (id : ℕ) : Bytes :=
  [UInt8.ofNat (id / 2 ^ 24), UInt8.ofNat (id / 2 ^ 16), UInt8.ofNat (id / 2 ^ 8), UInt8.ofNat id]

/-- The header of a `DATA` frame. -/
def dataHeader (id length : ℕ) (endStream : Bool) : Bytes :=
  [UInt8.ofNat (length / 2 ^ 16), UInt8.ofNat (length / 2 ^ 8), UInt8.ofNat length, 0, if endStream then 1 else 0] ++
    octetsOfId id

/-- The `RST_STREAM` frame with `NGHTTP2_INTERNAL_ERROR`. -/
def resetFrame (id : ℕ) : { frame : Bytes // frame ≠ [] } :=
  ⟨[0, 0, 4, 3, 0] ++ octetsOfId id ++ [0, 0, 0, 2], List.cons_ne_nil _ _⟩

namespace Stream

def consult (stream : Stream ε) (limit : ℕ) : Option (Answer × BodyEntry ε) :=
  let offer : Offer := ⟨List.replicate limit 0, fun length flags =>
    dataHeader stream.id length (flags.eof && !flags.noEndStream)⟩
  if stream.noCopy then consultShared stream.entry offer else consultPush stream.entry offer

/-- The frame that carries some octets. -/
def framed (stream : Stream ε) (octets : Bytes) (endStream : Bool) : Piece :=
  let header := dataHeader stream.id octets.length endStream
  if stream.noCopy then .record ⟨header, octets, rfl⟩ else .block (header ++ octets) (List.cons_ne_nil _ _)

end Stream

namespace Session

/-- The streams that flow control lets send, by where they stand. -/
def ready (s : Session ε) : List ℕ :=
  (List.range s.streams.length).filter fun k => (s.streams[k]?).any fun stream => 0 < stream.window ∧ 0 < s.window

/-- The stream to consult, with the streams on either side of it. -/
def pick (s : Session ε) : Option (List (Stream ε) × Stream ε × List (Stream ε)) :=
  match (s.ready)[s.order s.consulted % s.ready.length]? with
  | none => none
  | some k =>
    match s.streams.drop k with
    | [] => none
    | stream :: after => some (s.streams.take k, stream, after)

/-- Consults the body of one stream. -/
def consult (s : Session ε) (before : List (Stream ε)) (stream : Stream ε) (after : List (Stream ε)) :
    Piece × Session ε :=
  let s := { s with consulted := s.consulted + 1 }
  match stream.consult (min (min s.window stream.window) s.maxFrame) with
  | none => (.failed, s)
  | some (answer, entry) =>
    let written := answer.octets.length
    let s := { s with window := s.window - written }
    let gone := { s with streams := before ++ after }
    match answer.signal with
    | .more =>
      (stream.framed answer.octets false,
        { s with streams := before ++ { stream with entry, window := stream.window - written } :: after })
    | .ended => (stream.framed answer.octets true, gone)
    -- A frame without octets ahead of trailers is cancelled.
    | .endedWithTrailers => (if answer.octets = [] then .silent else stream.framed answer.octets false, gone)
    | .deferred => (.silent, gone)
    | .failed => (.silent, { gone with queued := [resetFrame stream.id] })

/-- One step of `nghttp2_session_mem_send2`, unless there is nothing to say. -/
def produce (s : Session ε) : Option (Piece × Session ε) :=
  match s.queued with
  | frame :: queued => some (.block frame.1 frame.2, { s with queued })
  | [] => s.pick.map fun (before, stream, after) => s.consult before stream after

end Session

/-! ## The flush -/

/-- What a call of `send_into` returns. -/
inductive Sent
  | block (bytes : Bytes) (nonempty : bytes ≠ [])
  | nothing
  | failed

/-- `send_into`, if it returns within as many steps, with the records it appends to the sink. -/
def sendInto : ℕ → Session ε → Option (List Http2Drains.SendRecord × Sent × Session ε)
  | 0, _ => none
  | steps + 1, s =>
    match s.produce with
    | none => some ([], .nothing, s)
    | some (.block bytes nonempty, s) => some ([], .block bytes nonempty, s)
    | some (.failed, s) => some ([], .failed, s)
    | some (.silent, s) => sendInto steps s
    | some (.record record, s) => (sendInto steps s).map fun (records, sent, s) => (record :: records, sent, s)

/-- The loop of a drain around `send_into`: the pass that it takes, if it leaves within as many turns. -/
def flush : ℕ → Session ε → Option Pass
  | 0, _ => none
  | turns + 1, s =>
    match sendInto turns s with
    | none => none
    | some (records, .nothing, _) => some (.done records)
    | some (records, .failed, _) => some (.failed records)
    | some (records, .block bytes nonempty, s) => (flush turns s).map (Pass.block records bytes nonempty)

/-- The flush returns control, if the session asks in this order. -/
def Returns (s : Session ε) (order : ℕ → ℕ) : Prop := ∃ turns pass, flush turns { s with order } = some pass

/-! ## Bodies that stall -/

def isData : PollFrame ε → Bool
  | .frame (.data _) => true
  | _ => false

/-- How many octets there are ahead of the `k`-th answer from where an adapter stands. -/
def ahead (o : Outgoing ε) : ℕ → ℕ
  | 0 => (o.leftover.getD []).length
  | k + 1 => ahead o k + (octetsOf (o.body (o.polled + k))).length

/-- From where it stands, the body stays ready with data frames for ever, and has less data than the budget. -/
def Stalls (o : Outgoing ε) (budget : ℕ) : Prop := ∀ k, isData (o.body (o.polled + k)) = true ∧ ahead o k < budget

theorem ahead_of_base {o after : Outgoing ε} {j n : ℕ} (hbody : after.body = o.body) (hpolled : after.polled = o.polled + j)
    (hbase : (after.leftover.getD []).length + n = ahead o j) (k : ℕ) : ahead after k + n = ahead o (j + k) := by
  induction k with
  | zero => exact hbase
  | succ k ih =>
    rw [← Nat.add_assoc, ahead, ahead, ← ih, hbody, hpolled, Nat.add_assoc o.polled]
    omega

theorem ahead_mono (o : Outgoing ε) {j k : ℕ} (h : j ≤ k) : ahead o j ≤ ahead o k := by
  induction h with
  | refl => exact Nat.le_refl _
  | step _ ih => exact ih.trans (Nat.le_add_right _ _)

/-! ## One consultation -/

/-- What a consultation that goes on has moved: `j` answers, all of them data, and the octets of the chunk. -/
structure Moves (o : Outgoing ε) (chunk : Bytes) (after : Outgoing ε) (j : ℕ) : Prop where
  sameBody : after.body = o.body
  polled : after.polled = o.polled + j
  data : ∀ k < j, isData (o.body (o.polled + k)) = true
  base : (after.leftover.getD []).length + chunk.length = ahead o j

theorem moves_splitOff {o : Outgoing ε} (hnone : o.leftover = none) (data : Bytes) {limit : ℕ} (hlimit : 0 < limit) :
    ∃ chunk, (o.splitOff data limit).1 = .wrote chunk ∧ chunk.length ≤ limit ∧
      (((o.splitOff data limit).2.leftover.getD []).length + chunk.length = data.length) ∧
      (o.splitOff data limit).2.body = o.body ∧ (o.splitOff data limit).2.polled = o.polled ∧
      (chunk = [] → data = [] ∧ (o.splitOff data limit).2.leftover = none) := by
  rw [Outgoing.splitOff]
  split
  · rename_i hlong
    refine ⟨_, rfl, List.length_take_le .., ?_, rfl, rfl, fun hempty => ?_⟩
    · simp only [Outgoing.holding, Option.getD_some, List.length_take, List.length_drop]
      omega
    · have hlen := congrArg List.length hempty
      rw [List.length_take, List.length_nil] at hlen
      omega
  · rename_i hshort
    exact ⟨_, rfl, Nat.not_lt.mp hshort, by simp [Outgoing.holding, hnone], rfl, rfl, fun hempty => ⟨hempty, hnone⟩⟩

/-- The loop over the frames goes on after as many empty frames as it may skip, or with a chunk, or stops at an answer
that is no data. -/
theorem takeFrames_moves (frames : ℕ) {o : Outgoing ε} (hnone : o.leftover = none) {limit : ℕ} (hlimit : 0 < limit) :
    (∃ chunk j, (o.takeFrames frames limit).1 = .wrote chunk ∧ chunk.length ≤ limit ∧
      Moves o chunk (o.takeFrames frames limit).2 j ∧
      (chunk = [] → j = frames ∧ (o.takeFrames frames limit).2.leftover = none)) ∨
    ((o.takeFrames frames limit).1.signal ≠ .more ∧ (o.takeFrames frames limit).1.chunk = [] ∧
      ∃ k, isData (o.body (o.polled + k)) = false) := by
  induction frames generalizing o with
  | zero =>
    refine .inl ⟨[], 0, rfl, Nat.zero_le _, ⟨rfl, rfl, ?_, rfl⟩, fun _ => ⟨rfl, hnone⟩⟩
    intro k hk
    exact absurd hk (Nat.not_lt_zero k)
  | succ frames ih =>
    rw [Outgoing.takeFrames]
    cases hanswer : o.body o.polled with
    | pending => exact .inr ⟨by rintro ⟨⟩, rfl, 0, by rw [Nat.add_zero, hanswer]; rfl⟩
    | ended => exact .inr ⟨by rintro ⟨⟩, rfl, 0, by rw [Nat.add_zero, hanswer]; rfl⟩
    | failed error => exact .inr ⟨by rintro ⟨⟩, rfl, 0, by rw [Nat.add_zero, hanswer]; rfl⟩
    | frame frame =>
      cases frame with
      | trailers fields => exact .inr ⟨by rintro ⟨⟩, rfl, 0, by rw [Nat.add_zero, hanswer]; rfl⟩
      | unknown => exact .inr ⟨by rintro ⟨⟩, rfl, 0, by rw [Nat.add_zero, hanswer]; rfl⟩
      | data data =>
        have hzero : ahead o 0 = 0 := by rw [ahead, hnone]; rfl
        have hone : ahead o 1 = data.length := by rw [ahead, hzero, Nat.zero_add, Nat.add_zero, hanswer, octetsOf]
        have hfirst (k : ℕ) (hk : k = 0) : isData (o.body (o.polled + k)) = true := by rw [hk, Nat.add_zero, hanswer]; rfl
        by_cases hempty : data = []
        · simp only [if_pos hempty]
          have hasked (k : ℕ) : ahead o.asked k = ahead o (1 + k) :=
            @ahead_of_base _ o o.asked 1 0 rfl rfl (by
              rw [hone, hempty, Outgoing.asked, hnone]
              rfl) k
          obtain ⟨chunk, j, hwrote, hfits, hmoves, hprogress⟩ | ⟨hstops, hchunk, k, hk⟩ := ih (o := o.asked) hnone
          · refine .inl ⟨chunk, j + 1, hwrote, hfits, ⟨hmoves.sameBody, ?_, fun k hk => ?_, ?_⟩, fun h => ?_⟩
            · have hpolled : _ = o.polled + 1 + j := hmoves.polled
              omega
            · cases k with
              | zero => exact hfirst 0 rfl
              | succ k =>
                have hdata := hmoves.data k (Nat.lt_of_succ_lt_succ hk)
                rwa [Outgoing.asked, Nat.add_assoc, Nat.add_comm 1] at hdata
            · rw [hmoves.base, hasked, Nat.add_comm]
            · exact ⟨congrArg (· + 1) (hprogress h).1, (hprogress h).2⟩
          · refine .inr ⟨hstops, hchunk, k + 1, ?_⟩
            rwa [Outgoing.asked, Nat.add_assoc, Nat.add_comm 1] at hk
        · simp only [if_neg hempty]
          obtain ⟨chunk, hwrote, hfits, hlen, hbody, hpolled, hprogress⟩ :=
            moves_splitOff (o := o.asked) hnone data hlimit
          refine .inl ⟨chunk, 1, hwrote, hfits, ⟨hbody, hpolled, fun k hk => hfirst k (by omega), ?_⟩, fun h => ?_⟩
          · rw [hlen, hone]
          · exact absurd (hprogress h).1 hempty

/-- How much an adapter holds back, as a count of chunks. -/
def held (o : Outgoing ε) : ℕ := if o.leftover.isSome then 1 else 0

/-- A consultation goes on, and then moves an octet or an answer or lets go of what was held back; or it stops at an
answer that is no data. -/
theorem take_moves (o : Outgoing ε) {limit : ℕ} (hlimit : 0 < limit) :
    (∃ chunk j, (o.take limit).1 = .wrote chunk ∧ chunk.length ≤ limit ∧ Moves o chunk (o.take limit).2 j ∧
      (chunk = [] → (0 < j ∧ ahead o 0 = 0 ∧ held (o.take limit).2 = held o) ∨ (j = 0 ∧ held (o.take limit).2 < held o))) ∨
    ((o.take limit).1.signal ≠ .more ∧ (o.take limit).1.chunk = [] ∧ ∃ k, isData (o.body (o.polled + k)) = false) := by
  cases hleftover : o.leftover with
  | none =>
    rw [Outgoing.take, hleftover]
    obtain ⟨chunk, j, hwrote, hfits, hmoves, hprogress⟩ | hstops := takeFrames_moves emptyFrameLimit hleftover hlimit
    · refine .inl ⟨chunk, j, hwrote, hfits, hmoves, fun h => .inl ⟨?_, ?_, ?_⟩⟩
      · rw [(hprogress h).1]
        decide
      · rw [ahead, hleftover]
        rfl
      · rw [held, held, (hprogress h).2, hleftover]
    · exact .inr hstops
  | some data =>
    rw [Outgoing.take, hleftover]
    obtain ⟨chunk, hwrote, hfits, hlen, hbody, hpolled, hprogress⟩ :=
      moves_splitOff (o := { o with leftover := none }) rfl data hlimit
    refine .inl ⟨chunk, 0, hwrote, hfits, ⟨hbody, hpolled, ?_, ?_⟩, fun h => .inr ⟨rfl, ?_⟩⟩
    · intro k hk
      exact absurd hk (Nat.not_lt_zero k)
    · rw [hlen, ahead, hleftover]
      rfl
    · simp only [held, (hprogress h).2, hleftover]
      exact Nat.zero_lt_one

/-- A body stops being consulted before its `k`-th answer, or there gives no data. -/
def Halts (o : Outgoing ε) (budget k : ℕ) : Prop := isData (o.body (o.polled + k)) = false ∨ budget ≤ ahead o k

theorem not_stalls_iff (o : Outgoing ε) (budget : ℕ) : ¬Stalls o budget ↔ ∃ k, Halts o budget k := by
  simp [Stalls, Halts, not_forall, or_iff_not_imp_left]

theorem Halts.anti {o : Outgoing ε} {budget smaller k : ℕ} (h : Halts o budget k) (hle : smaller ≤ budget) :
    Halts o smaller k :=
  h.imp_right hle.trans

theorem Halts.moves {o after : Outgoing ε} {chunk : Bytes} {budget smaller j k : ℕ} (h : Halts o budget k)
    (hmoves : Moves o chunk after j) (hle : smaller ≤ budget - chunk.length) : Halts after smaller (k - j) := by
  have hahead := ahead_of_base hmoves.sameBody hmoves.polled hmoves.base
  obtain hdata | hbudget := h
  · have hjk : j ≤ k := by
      by_contra hlt
      rw [hmoves.data k (by omega)] at hdata
      cases hdata
    left
    rw [hmoves.sameBody, hmoves.polled, show o.polled + j + (k - j) = o.polled + k by omega]
    exact hdata
  · right
    have hk : ahead o k ≤ ahead o (j + (k - j)) := ahead_mono o (by omega)
    have hrest := hahead (k - j)
    omega

/-- The first answer at which the body halts. -/
noncomputable def halt (o : Outgoing ε) (budget : ℕ) : ℕ := sInf { k | Halts o budget k }

theorem halts_halt {o : Outgoing ε} {budget : ℕ} (h : ¬Stalls o budget) : Halts o budget (halt o budget) :=
  Nat.sInf_mem ((not_stalls_iff o budget).mp h)

theorem halt_le {o : Outgoing ε} {budget k : ℕ} (h : Halts o budget k) : halt o budget ≤ k := Nat.sInf_le h

/-- How much a stream may still do in a flush. -/
noncomputable def cost (window : ℕ) (stream : Stream ε) : ℕ :=
  2 * stream.window + halt stream.entry.source (min stream.window window) + held stream.entry.source + 2

def Calm (window : ℕ) (stream : Stream ε) : Prop := ¬Stalls stream.entry.source (min stream.window window)

theorem Calm.anti {window smaller : ℕ} {stream : Stream ε} (h : Calm window stream) (hle : smaller ≤ window) :
    Calm smaller stream ∧ cost smaller stream ≤ cost window stream := by
  have hhalts := (halts_halt h).anti (min_le_min_left stream.window hle)
  refine ⟨(not_stalls_iff _ _).mpr ⟨_, hhalts⟩, ?_⟩
  have hle := halt_le hhalts
  rw [cost, cost]
  omega

theorem Calm.moves {window : ℕ} {stream : Stream ε} {entry : BodyEntry ε} {chunk : Bytes} {j : ℕ} (h : Calm window stream)
    (hwindow : 0 < window) (hpos : 0 < stream.window)
    (hmoves : Moves stream.entry.source chunk entry.source j)
    (hprogress : chunk = [] → (0 < j ∧ ahead stream.entry.source 0 = 0 ∧ held entry.source = held stream.entry.source) ∨
      (j = 0 ∧ held entry.source < held stream.entry.source)) :
    Calm (window - chunk.length) { stream with entry, window := stream.window - chunk.length } ∧
      cost (window - chunk.length) { stream with entry, window := stream.window - chunk.length } < cost window stream := by
  have hhalt := halts_halt h
  have hhalts : Halts entry.source (min (stream.window - chunk.length) (window - chunk.length))
      (halt stream.entry.source (min stream.window window) - j) := hhalt.moves hmoves (by omega)
  refine ⟨(not_stalls_iff _ _).mpr ⟨_, hhalts⟩, ?_⟩
  have hle := halt_le hhalts
  have hheld : held entry.source ≤ 1 := by
    rw [held]
    split <;> omega
  simp only [cost]
  by_cases hempty : chunk = []
  · have hzero : chunk.length = 0 := by rw [hempty]; rfl
    obtain ⟨hj, hahead, hsame⟩ | ⟨rfl, hless⟩ := hprogress hempty
    · have hfirst : halt stream.entry.source (min stream.window window) ≠ 0 := by
        intro hhalt0
        rw [hhalt0] at hhalt
        obtain hdata | hbudget := hhalt
        · rw [hmoves.data 0 hj] at hdata
          cases hdata
        · omega
      omega
    · omega
  · have hlen := List.length_pos_iff.mpr hempty
    omega

/-! ## Steps of the session -/

theorem Stream.consult_eq (stream : Stream ε) {limit : ℕ}
    (hfits : (stream.entry.source.take limit).1.chunk.length ≤ limit) :
    ∃ entry, stream.consult limit =
        some (⟨(stream.entry.source.take limit).1.chunk, (stream.entry.source.take limit).1.signal⟩, entry) ∧
      entry.source = (stream.entry.source.take limit).2 := by
  have hlen : (List.replicate limit (0 : UInt8)).length = limit := List.length_replicate
  rw [Stream.consult]
  cases stream.noCopy with
  | false =>
    refine ⟨_, consultPush_eq stream.entry _ (by rw [hlen]) ?_, rfl⟩
    rwa [hlen]
  | true =>
    obtain ⟨staged, records, h⟩ := consultShared_eq stream.entry stream.entry.staged stream.entry.records
      ⟨List.replicate limit 0, fun length flags => dataHeader stream.id length (flags.eof && !flags.noEndStream)⟩
      (by rw [hlen])
      (by rwa [hlen])
    exact ⟨_, h, rfl⟩

theorem Session.consult_spec {s : Session ε} (hqueued : s.queued = []) {stream : Stream ε} (before after : List (Stream ε))
    (hwindow : 0 < s.window) (hpos : 0 < stream.window) :
    (∃ chunk j entry, Moves stream.entry.source chunk entry.source j ∧
      (chunk = [] → (0 < j ∧ ahead stream.entry.source 0 = 0 ∧ held entry.source = held stream.entry.source) ∨
        (j = 0 ∧ held entry.source < held stream.entry.source)) ∧
      s.consult before stream after = (stream.framed chunk false,
        { s with
          consulted := s.consulted + 1
          window := s.window - chunk.length
          streams := before ++ { stream with entry, window := stream.window - chunk.length } :: after })) ∨
    (∃ piece queued, (∃ k, isData (stream.entry.source.body (stream.entry.source.polled + k)) = false) ∧
      queued.length ≤ 1 ∧ s.consult before stream after =
        (piece, { s with consulted := s.consulted + 1, streams := before ++ after, queued })) := by
  have hlimit : 0 < min (min s.window stream.window) s.maxFrame :=
    lt_min (lt_min hwindow hpos) s.maxFrame_pos
  generalize hl : min (min s.window stream.window) s.maxFrame = limit at hlimit
  obtain ⟨chunk, j, hwrote, hfits, hmoves, hprogress⟩ | ⟨hstops, hchunk, hk⟩ := take_moves stream.entry.source hlimit
  · obtain ⟨entry, hconsult, hsource⟩ := @Stream.consult_eq _ stream limit (by rw [hwrote]; exact hfits)
    rw [hwrote] at hconsult
    rw [← hsource] at hmoves hprogress
    refine .inl ⟨chunk, j, entry, hmoves, hprogress, ?_⟩
    simp only [Session.consult, hl, hconsult, SharedOutcome.signal, SharedOutcome.chunk]
  · obtain ⟨entry, hconsult, -⟩ := @Stream.consult_eq _ stream limit (by rw [hchunk]; exact Nat.zero_le _)
    rw [hchunk] at hconsult
    right
    simp only [Session.consult, hl, hconsult, List.length_nil, Nat.sub_zero]
    cases hsignal : (stream.entry.source.take limit).1.signal with
    | more => exact absurd hsignal hstops
    | ended => exact ⟨_, [], hk, Nat.zero_le _, by rw [hqueued]⟩
    | endedWithTrailers => exact ⟨_, [], hk, Nat.zero_le _, by rw [hqueued]⟩
    | deferred => exact ⟨_, [], hk, Nat.zero_le _, by rw [hqueued]⟩
    | failed => exact ⟨_, [resetFrame stream.id], hk, Nat.le_refl _, rfl⟩

theorem Session.pick_some {s : Session ε} {before after : List (Stream ε)} {stream : Stream ε}
    (h : s.pick = some (before, stream, after)) :
    s.streams = before ++ stream :: after ∧ 0 < stream.window ∧ 0 < s.window := by
  rw [Session.pick] at h
  split at h
  · cases h
  rename_i k hk
  have hready := List.mem_of_getElem? hk
  rw [Session.ready, List.mem_filter] at hready
  split at h
  · cases h
  rename_i stream' after' hdrop
  cases h
  have hstream : s.streams[k]? = some stream := by
    rw [← List.head?_drop, hdrop]
    rfl
  rw [hstream] at hready
  have hwindows := hready.2
  simp only [Option.any_some, decide_eq_true_eq] at hwindows
  exact ⟨by rw [← hdrop, List.take_append_drop], hwindows⟩

/-! ## A flush without a body that stalls ends -/

noncomputable def costs (window : ℕ) (streams : List (Stream ε)) : ℕ := (streams.map (cost window)).sum

/-- None of the bodies stalls. -/
def AllCalm (window : ℕ) (streams : List (Stream ε)) : Prop := ∀ stream ∈ streams, Calm window stream

theorem costs_append (window : ℕ) (streams more : List (Stream ε)) :
    costs window (streams ++ more) = costs window streams + costs window more := by
  rw [costs, List.map_append, List.sum_append]
  rfl

theorem costs_cons (window : ℕ) (stream : Stream ε) (streams : List (Stream ε)) :
    costs window (stream :: streams) = cost window stream + costs window streams := by
  rw [costs, List.map_cons, List.sum_cons]
  rfl

theorem allCalm_append {window : ℕ} {streams more : List (Stream ε)} :
    AllCalm window (streams ++ more) ↔ AllCalm window streams ∧ AllCalm window more := by
  simp [AllCalm, or_imp, forall_and]

theorem allCalm_cons {window : ℕ} {stream : Stream ε} {streams : List (Stream ε)} :
    AllCalm window (stream :: streams) ↔ Calm window stream ∧ AllCalm window streams := by
  simp [AllCalm]

theorem AllCalm.anti {window smaller : ℕ} {streams : List (Stream ε)} (h : AllCalm window streams)
    (hle : smaller ≤ window) : AllCalm smaller streams ∧ costs smaller streams ≤ costs window streams := by
  induction streams with
  | nil => exact ⟨fun _ hstream => absurd hstream List.not_mem_nil, Nat.le_refl _⟩
  | cons stream streams ih =>
    obtain ⟨hstream, hrest⟩ := allCalm_cons.mp h
    obtain ⟨hcalm, hcost⟩ := hstream.anti hle
    obtain ⟨hcalms, hcosts⟩ := ih hrest
    rw [costs_cons, costs_cons]
    exact ⟨allCalm_cons.mpr ⟨hcalm, hcalms⟩, Nat.add_le_add hcost hcosts⟩

/-- How many steps are left at most. -/
noncomputable def Session.left (s : Session ε) : ℕ := s.queued.length + costs s.window s.streams

theorem Session.produce_calm {s s' : Session ε} {piece : Piece} (hcalm : AllCalm s.window s.streams)
    (h : s.produce = some (piece, s')) : AllCalm s'.window s'.streams ∧ s'.left < s.left := by
  rw [Session.produce] at h
  cases hqueued : s.queued with
  | cons frame queued =>
    rw [hqueued] at h
    cases h
    refine ⟨hcalm, ?_⟩
    simp only [Session.left, hqueued, List.length_cons]
    omega
  | nil =>
    rw [hqueued] at h
    obtain ⟨⟨before, stream, after⟩, hpick, hconsult⟩ := Option.map_eq_some_iff.mp h
    replace hconsult : s.consult before stream after = (piece, s') := hconsult
    obtain ⟨hstreams, hpos, hwindow⟩ := Session.pick_some hpick
    rw [hstreams, allCalm_append, allCalm_cons] at hcalm
    obtain ⟨hbefore, hstream, hafter⟩ := hcalm
    have hleft : s.left = costs s.window before + (cost s.window stream + costs s.window after) := by
      rw [Session.left, hqueued, hstreams, costs_append, costs_cons, List.length_nil, Nat.zero_add]
    obtain ⟨chunk, j, entry, hmoves, hprogress, heq⟩ | ⟨piece', queued, -, hlen, heq⟩ :=
      Session.consult_spec hqueued before after hwindow hpos
    · rw [heq] at hconsult
      cases hconsult
      obtain ⟨hcalm, hless⟩ := hstream.moves hwindow hpos hmoves hprogress
      obtain ⟨hcalmBefore, hlessBefore⟩ := hbefore.anti (Nat.sub_le s.window chunk.length)
      obtain ⟨hcalmAfter, hlessAfter⟩ := hafter.anti (Nat.sub_le s.window chunk.length)
      refine ⟨allCalm_append.mpr ⟨hcalmBefore, allCalm_cons.mpr ⟨hcalm, hcalmAfter⟩⟩, ?_⟩
      rw [hleft]
      simp only [Session.left, hqueued, costs_append, costs_cons, List.length_nil]
      omega
    · rw [heq] at hconsult
      cases hconsult
      refine ⟨allCalm_append.mpr ⟨hbefore, hafter⟩, ?_⟩
      rw [hleft]
      have hcost : 2 ≤ cost s.window stream := Nat.le_add_left _ _
      simp only [Session.left, costs_append]
      omega

theorem sendInto_calm {steps : ℕ} {s : Session ε} (hcalm : AllCalm s.window s.streams) (hsteps : s.left < steps) :
    ∃ records sent s', sendInto steps s = some (records, sent, s') ∧ AllCalm s'.window s'.streams ∧
      (∀ bytes nonempty, sent = .block bytes nonempty → s'.left < s.left) := by
  induction steps generalizing s with
  | zero => omega
  | succ steps ih =>
    rw [sendInto]
    cases hproduce : s.produce with
    | none => exact ⟨[], .nothing, s, rfl, hcalm, by rintro bytes nonempty ⟨⟩⟩
    | some produced =>
      obtain ⟨piece, s'⟩ := produced
      obtain ⟨hcalm', hless⟩ := Session.produce_calm hcalm hproduce
      cases piece with
      | block bytes nonempty => exact ⟨[], .block bytes nonempty, s', rfl, hcalm', fun _ _ _ => hless⟩
      | failed => exact ⟨[], .failed, s', rfl, hcalm', by rintro bytes nonempty ⟨⟩⟩
      | silent =>
        obtain ⟨records, sent, s'', hsent, hcalm'', hleft⟩ := ih hcalm' (by omega)
        exact ⟨records, sent, s'', hsent, hcalm'', fun bytes nonempty h => (hleft bytes nonempty h).trans hless⟩
      | record record =>
        obtain ⟨records, sent, s'', hsent, hcalm'', hleft⟩ := ih hcalm' (by omega)
        refine ⟨record :: records, sent, s'', ?_, hcalm'', fun bytes nonempty h => (hleft bytes nonempty h).trans hless⟩
        simp only [hsent, Option.map_some]

theorem flush_calm {turns : ℕ} {s : Session ε} (hcalm : AllCalm s.window s.streams) (hturns : s.left + 1 < turns) :
    ∃ pass, flush turns s = some pass := by
  induction turns generalizing s with
  | zero => omega
  | succ turns ih =>
    obtain ⟨records, sent, s', hsent, hcalm', hleft⟩ := sendInto_calm hcalm (show s.left < turns by omega)
    rw [flush, hsent]
    cases sent with
    | nothing => exact ⟨_, rfl⟩
    | failed => exact ⟨_, rfl⟩
    | block bytes nonempty =>
      have hless := hleft bytes nonempty rfl
      obtain ⟨pass, hpass⟩ := ih hcalm' (by omega)
      exact ⟨.block records bytes nonempty pass, by simp only [hpass, Option.map_some]⟩

/-! ## A flush with a body that stalls need not end -/

theorem Stalls.moves {o after : Outgoing ε} {chunk : Bytes} {budget j : ℕ} (h : Stalls o budget)
    (hmoves : Moves o chunk after j) : Stalls after (budget - chunk.length) ∧ chunk.length < budget := by
  have hahead := ahead_of_base hmoves.sameBody hmoves.polled hmoves.base
  constructor
  · intro k
    obtain ⟨hdata, hless⟩ := h (j + k)
    have hrest := hahead k
    refine ⟨?_, by omega⟩
    rw [hmoves.sameBody, hmoves.polled, Nat.add_assoc]
    exact hdata
  · have hless := (h j).2
    have hrest := hahead 0
    rw [Nat.add_zero] at hrest
    omega

/-- The session asks for the stalling body of one stream again and again. -/
structure Stuck (s : Session ε) (before : List (Stream ε)) (stream : Stream ε) (after : List (Stream ε)) (choice : ℕ) :
    Prop where
  streams : s.streams = before ++ stream :: after
  stalls : Stalls stream.entry.source (min stream.window s.window)
  order : ∀ n, s.order n = choice
  ready : s.ready[choice % s.ready.length]? = some before.length

theorem Stalls.pos {o : Outgoing ε} {budget : ℕ} (h : Stalls o budget) : 0 < budget := by
  have hless := (h 0).2
  omega

theorem Stuck.pick {s : Session ε} {before after : List (Stream ε)} {stream : Stream ε} {choice : ℕ}
    (h : Stuck s before stream after choice) : s.pick = some (before, stream, after) := by
  have hdrop : s.streams.drop before.length = stream :: after := by rw [h.streams, List.drop_left]
  have htake : s.streams.take before.length = before := by rw [h.streams, List.take_left]
  rw [Session.pick, h.order, h.ready]
  simp only [hdrop, htake]

theorem ready_eq {s s' : Session ε} {before after : List (Stream ε)} {stream stream' : Stream ε}
    (hstreams : s.streams = before ++ stream :: after) (hstreams' : s'.streams = before ++ stream' :: after)
    (hwindow : 0 < s.window) (hwindow' : 0 < s'.window) (hpos : 0 < stream.window) (hpos' : 0 < stream'.window) :
    s'.ready = s.ready := by
  rw [Session.ready, Session.ready, hstreams, hstreams']
  have hlen : (before ++ stream' :: after).length = (before ++ stream :: after).length := by simp
  rw [hlen]
  apply List.filter_congr
  intro k _
  obtain hlt | rfl | hgt := Nat.lt_trichotomy k before.length
  · simp [List.getElem?_append_left hlt, hwindow, hwindow']
  · simp [hwindow, hwindow', hpos, hpos']
  · obtain ⟨m, hm⟩ := Nat.exists_eq_add_of_lt hgt
    have hsub : k - before.length = m + 1 := by omega
    simp [List.getElem?_append_right hgt.le, hsub, hwindow, hwindow']

theorem Stuck.produce {s : Session ε} {before after : List (Stream ε)} {stream : Stream ε} {choice : ℕ}
    (h : Stuck s before stream after choice) :
    ∃ piece s' stream', s.produce = some (piece, s') ∧ Stuck s' before stream' after choice ∧
      ((∃ bytes nonempty, piece = .block bytes nonempty) ∨ ∃ record, piece = .record record) := by
  rw [Session.produce]
  cases hqueued : s.queued with
  | cons frame queued =>
    exact ⟨_, _, stream, rfl, ⟨h.streams, h.stalls, h.order, h.ready⟩, .inl ⟨frame.1, frame.2, rfl⟩⟩
  | nil =>
    obtain ⟨hpos, hwindow⟩ := lt_min_iff.mp h.stalls.pos
    rw [h.pick]
    obtain ⟨chunk, j, entry, hmoves, -, heq⟩ | ⟨_, _, ⟨k, hk⟩, -, -⟩ :=
      Session.consult_spec hqueued before after hwindow hpos
    · obtain ⟨hstalls, hless⟩ := h.stalls.moves hmoves
      rw [← Nat.sub_min_sub_right] at hstalls
      obtain ⟨hpos', hwindow'⟩ := lt_min_iff.mp hstalls.pos
      refine ⟨_, _, { stream with entry, window := stream.window - chunk.length }, congrArg some heq, ?_, ?_⟩
      · refine ⟨rfl, hstalls, h.order, ?_⟩
        rw [ready_eq h.streams rfl hwindow hwindow' hpos hpos']
        exact h.ready
      · rw [Stream.framed]
        split
        · exact .inr ⟨_, rfl⟩
        · exact .inl ⟨_, List.cons_ne_nil _ _, rfl⟩
    · rw [(h.stalls k).1] at hk
      cases hk

theorem Stuck.sendInto {s s' : Session ε} {before after : List (Stream ε)} {stream : Stream ε} {choice steps : ℕ}
    {records : List Http2Drains.SendRecord} {sent : Sent} (h : Stuck s before stream after choice)
    (hsent : sendInto steps s = some (records, sent, s')) :
    (∃ bytes nonempty, sent = .block bytes nonempty) ∧ ∃ stream', Stuck s' before stream' after choice := by
  induction steps generalizing s stream records with
  | zero => cases hsent
  | succ steps ih =>
    obtain ⟨piece, s₁, stream', hproduce, hstuck, ⟨bytes, nonempty, rfl⟩ | ⟨record, rfl⟩⟩ := h.produce
    · rw [Http2FlushBounds.sendInto, hproduce] at hsent
      cases hsent
      exact ⟨⟨bytes, nonempty, rfl⟩, stream', hstuck⟩
    · rw [Http2FlushBounds.sendInto, hproduce] at hsent
      obtain ⟨⟨records', sent', s₂⟩, hrest, heq⟩ := Option.map_eq_some_iff.mp hsent
      cases heq
      exact ih hstuck hrest

theorem Stuck.flush {s : Session ε} {before after : List (Stream ε)} {stream : Stream ε} {choice : ℕ}
    (h : Stuck s before stream after choice) (turns : ℕ) : flush turns s = none := by
  induction turns generalizing s stream with
  | zero => rfl
  | succ turns ih =>
    rw [Http2FlushBounds.flush]
    cases hsent : Http2FlushBounds.sendInto turns s with
    | none => rfl
    | some result =>
      obtain ⟨records, sent, s'⟩ := result
      obtain ⟨⟨bytes, nonempty, rfl⟩, stream', hstuck⟩ := h.sendInto hsent
      simp only [ih hstuck, Option.map_none]

theorem not_returns_of_stalls {s : Session ε} {stream : Stream ε} (hmem : stream ∈ s.streams)
    (hstalls : Stalls stream.entry.source (min stream.window s.window)) : ∃ order, ¬Returns s order := by
  obtain ⟨before, after, hstreams⟩ := List.append_of_mem hmem
  obtain ⟨hpos, hwindow⟩ := lt_min_iff.mp hstalls.pos
  have hready : before.length ∈ s.ready := by
    rw [Session.ready, List.mem_filter, hstreams]
    simp [hpos, hwindow]
  obtain ⟨choice, hchoice, hget⟩ := List.mem_iff_getElem.mp hready
  refine ⟨fun _ => choice, ?_⟩
  have hstuck : Stuck { s with order := fun _ => choice } before stream after choice := by
    refine ⟨hstreams, hstalls, fun _ => rfl, ?_⟩
    have hsame : ({ s with order := fun _ => choice } : Session ε).ready = s.ready := rfl
    rw [hsame, Nat.mod_eq_of_lt hchoice, List.getElem?_eq_getElem hchoice, hget]
  rintro ⟨turns, pass, hpass⟩
  rw [hstuck.flush turns] at hpass
  cases hpass

/-- A session whose only body is always ready with an empty data frame. -/
def endlessSession (noCopy : Bool) : Session Unit where
  streams := [⟨1, 65535, noCopy, .new (fun _ => .frame (.data [])) 1⟩]
  window := 65535
  maxFrame := 16384
  maxFrame_pos := Nat.succ_pos _
  order := fun _ => 0

theorem stuck_endlessSession (noCopy : Bool) :
    Stuck (endlessSession noCopy) [] ⟨1, 65535, noCopy, .new (fun _ => .frame (.data [])) 1⟩ [] 0 := by
  refine ⟨rfl, fun k => ⟨rfl, ?_⟩, fun _ => rfl, rfl⟩
  have hzero : ahead (BodyEntry.new (fun _ => (.frame (.data []) : PollFrame Unit)) 1).source k = 0 := by
    induction k with
    | zero => rfl
    | succ k ih =>
      rw [ahead, ih]
      rfl
  rw [hzero]
  exact Nat.succ_pos _

theorem not_returns_endlessSession (noCopy : Bool) : ¬Returns (endlessSession noCopy) fun _ => 0 := by
  rintro ⟨turns, pass, hpass⟩
  have hnone := (stuck_endlessSession noCopy).flush turns
  exact absurd (hnone.symm.trans hpass) (by rintro ⟨⟩)

end Ngnet.Http2FlushBounds
