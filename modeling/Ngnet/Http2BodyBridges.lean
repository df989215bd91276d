import Ngnet.Http3BodyPulls

/-!
# The body bridges of HTTP/2

The crate `ngnet-h2`: `Outgoing` of `http/body/outgoing.rs`, which copies what a caller's body yields into the buffer
that libnghttp2 offers, `SharedOutgoing` of `http/body/shared.rs`, which hands over the bytes themselves, and the halves
of `callbacks.rs` on either side of libnghttp2, `read_push_body`, `read_shared_body` and `send_data`.

The two adapters have the same fields. A body is any sequence of answers, one for each time it is polled; its data is
`Bytes`, whose `chunk` is all that remains. Of the session there is the entry of the one stream, with the error that is
parked for it and the records that its frames leave. Wakers are left out.
-/

namespace Ngnet.Http2BodyBridges
open QmuxVarints
open Http3Heads (HeaderMap)
open Http3BodyPulls (Frame PollFrame)

variable {ε : Type}

/-! ## The adapters -/

inductive BodyError (ε : Type)
  | body (error : ε)
  | bodyOverrun (length : ℕ)
  | sharedOverrun (length produced : ℕ)
  deriving DecidableEq, Repr

inductive BodyOutcome (ε : Type)
  | wrote (written : ℕ)
  | eof (written : ℕ)
  | eofWithTrailers (written : ℕ)
  | defer
  | fail (error : BodyError ε)
  deriving DecidableEq, Repr

inductive SharedOutcome (ε : Type)
  | wrote (chunk : Bytes)
  | eof (chunk : Bytes)
  | eofWithTrailers (chunk : Bytes)
  | defer
  | fail (error : BodyError ε)
  deriving DecidableEq, Repr

/-- What an adapter leaves with the driver: trailing blocks by stream, and the most chunks a body has held back. -/
structure Shared where
  trailers : List (ℕ × HeaderMap) := []
  bufferedHighWater : ℕ := 0
  deriving DecidableEq, Repr

namespace Shared

def stashTrailers (shared : Shared) (stream : ℕ) (fields : HeaderMap) : Shared :=
  { shared with trailers := shared.trailers ++ [(stream, fields)] }

def noteBuffered (shared : Shared) (chunks : ℕ) : Shared :=
  { shared with bufferedHighWater := max shared.bufferedHighWater chunks }

end Shared

/-- The fields of `Outgoing` and of `SharedOutgoing`. `naming` is the stream the waker is bound to, and `polled` counts
how often the body was polled. -/
structure Outgoing (ε : Type) where
  body : ℕ → PollFrame ε
  naming : ℕ
  polled : ℕ := 0
  shared : Shared := {}
  leftover : Option Bytes := none

def emptyFrameLimit : ℕ := 16

namespace Outgoing

def asked (o : Outgoing ε) : Outgoing ε := { o with polled := o.polled + 1 }

def stash (o : Outgoing ε) (fields : HeaderMap) : Outgoing ε :=
  { o with shared := o.shared.stashTrailers o.naming fields }

/-- Keeps `leftover`, and notes how many chunks are held back. -/
def holding (o : Outgoing ε) (leftover : Option Bytes) : Outgoing ε :=
  { o with leftover, shared := o.shared.noteBuffered (if leftover.isSome then 1 else 0) }

end Outgoing

/-- The loop of `Outgoing::drain_into`, with how much moved, what remains and the buffer. -/
def drainInto (data buf : Bytes) (written : ℕ) : ℕ × Bytes × Bytes :=
  if _ : written < buf.length ∧ data ≠ [] then
    let taken := min data.length (buf.length - written)
    drainInto (data.drop taken) (buf.take written ++ data.take taken ++ buf.drop (written + taken)) (written + taken)
  else (written, data, buf)
termination_by data.length
decreasing_by
  have hpos := List.length_pos_iff.mpr (‹_ ∧ _›).2
  rw [List.length_drop]
  omega

namespace Outgoing

/-- `Outgoing::hand_over`. -/
def handOver (o : Outgoing ε) (data buf : Bytes) : BodyOutcome ε × Outgoing ε × Bytes :=
  let (written, data, buf) := drainInto data buf 0
  (.wrote written, o.holding (if data = [] then o.leftover else some data), buf)

/-- The loop of `Outgoing::fill`. -/
def fillFrames : ℕ → Outgoing ε → Bytes → BodyOutcome ε × Outgoing ε × Bytes
  | 0, o, buf => (.wrote 0, o, buf)
  | frames + 1, o, buf =>
    match o.body o.polled with
    | .pending => (.defer, o.asked, buf)
    | .ended => (.eof 0, o.asked, buf)
    | .failed error => (.fail (.body error), o.asked, buf)
    | .frame (.data data) => if data = [] then fillFrames frames o.asked buf else o.asked.handOver data buf
    | .frame (.trailers fields) => (.eofWithTrailers 0, o.asked.stash fields, buf)
    | .frame .unknown => (.eof 0, o.asked, buf)

def fill (o : Outgoing ε) (buf : Bytes) : BodyOutcome ε × Outgoing ε × Bytes :=
  match o.leftover with
  | some data => { o with leftover := none }.handOver data buf
  | none => fillFrames emptyFrameLimit o buf

/-- `SharedOutgoing::hand_over`. -/
def splitOff (o : Outgoing ε) (data : Bytes) (limit : ℕ) : SharedOutcome ε × Outgoing ε :=
  if limit < data.length then (.wrote (data.take limit), o.holding (some (data.drop limit)))
  else (.wrote data, o.holding o.leftover)

/-- The loop of `SharedOutgoing::take`. -/
def takeFrames : ℕ → Outgoing ε → ℕ → SharedOutcome ε × Outgoing ε
  | 0, o, _ => (.wrote [], o)
  | frames + 1, o, limit =>
    match o.body o.polled with
    | .pending => (.defer, o.asked)
    | .ended => (.eof [], o.asked)
    | .failed error => (.fail (.body error), o.asked)
    | .frame (.data data) => if data = [] then takeFrames frames o.asked limit else o.asked.splitOff data limit
    | .frame (.trailers fields) => (.eofWithTrailers [], o.asked.stash fields)
    | .frame .unknown => (.eof [], o.asked)

/-- `SharedOutgoing::take`. -/
def take (o : Outgoing ε) (limit : ℕ) : SharedOutcome ε × Outgoing ε :=
  match o.leftover with
  | some data => { o with leftover := none }.splitOff data limit
  | none => takeFrames emptyFrameLimit o limit

end Outgoing

/-! ## The callbacks -/

/-- What a read callback returns: how much it wrote, `NGHTTP2_ERR_DEFERRED` or
`NGHTTP2_ERR_TEMPORAL_CALLBACK_FAILURE`. -/
inductive Reply
  | written (octets : ℕ)
  | deferred
  | temporalFailure
  deriving DecidableEq, Repr

/-- `NGHTTP2_DATA_FLAG_EOF`, `NGHTTP2_DATA_FLAG_NO_END_STREAM` and `NGHTTP2_DATA_FLAG_NO_COPY`. -/
structure DataFlags where
  eof : Bool := false
  noEndStream : Bool := false
  noCopy : Bool := false
  deriving DecidableEq, Repr

structure SendRecord where
  header : Bytes
  payload : Bytes
  deriving DecidableEq, Repr

/-- The entry of one stream, with the error that is parked for the stream and the records of its frames. -/
structure BodyEntry (ε : Type) where
  source : Outgoing ε
  trailersReady : Bool := false
  staged : Option Bytes := none
  parked : Option (BodyError ε) := none
  records : List SendRecord := []

namespace BodyEntry

def new (body : ℕ → PollFrame ε) (naming : ℕ) : BodyEntry ε := { source := { body, naming } }

def park (e : BodyEntry ε) (error : BodyError ε) : BodyEntry ε := { e with parked := some error }

/-- `read_push_body`, on the buffer as libnghttp2 left it. -/
def readPushBody (e : BodyEntry ε) (buf : Bytes) : Reply × DataFlags × Bytes × BodyEntry ε :=
  let length := buf.length
  let (outcome, source, buf) := e.source.fill (List.replicate length 0)
  let e := { e with source }
  match outcome with
  | .wrote written =>
    if written ≤ length then (.written written, {}, buf, e)
    else (.temporalFailure, {}, buf, e.park (.bodyOverrun length))
  | .eof written =>
    if written ≤ length then (.written written, { eof := true }, buf, e)
    else (.temporalFailure, {}, buf, e.park (.bodyOverrun length))
  | .eofWithTrailers written =>
    if written ≤ length then
      (.written written, { eof := true, noEndStream := true }, buf, { e with trailersReady := true })
    else (.temporalFailure, {}, buf, e.park (.bodyOverrun length))
  | .fail error => (.temporalFailure, {}, buf, e.park error)
  | .defer => (.deferred, {}, buf, e)

/-- What `read_shared_body` does with a chunk. -/
def stage (e : BodyEntry ε) (length : ℕ) (chunk : Bytes) (eof trailers : Bool) : Reply × DataFlags × BodyEntry ε :=
  if length < chunk.length then (.temporalFailure, {}, e.park (.sharedOverrun length chunk.length))
  else
    (.written chunk.length, { eof, noEndStream := trailers, noCopy := true },
      { e with staged := some chunk, trailersReady := e.trailersReady || trailers })

def readSharedBody (e : BodyEntry ε) (length : ℕ) : Reply × DataFlags × BodyEntry ε :=
  let (outcome, source) := e.source.take length
  let e := { e with source }
  match outcome with
  | .wrote chunk => e.stage length chunk false false
  | .eof chunk => e.stage length chunk true false
  | .eofWithTrailers chunk => e.stage length chunk true true
  | .defer => (.deferred, {}, e)
  | .fail error => (.temporalFailure, {}, e.park error)

/-- `send_data`; `none` is `NGHTTP2_ERR_CALLBACK_FAILURE`, or the assertion of a debug build. -/
def sendData (e : BodyEntry ε) (framehd : Bytes) (length : ℕ) : Option (BodyEntry ε) :=
  match e.staged with
  | none => none
  | some payload =>
    if payload.length = length then
      some { e with staged := none, records := e.records ++ [⟨framehd.take 9, payload⟩] }
    else none

end BodyEntry

/-! ## Consultations -/

inductive Signal | more | ended | endedWithTrailers | deferred | failed
  deriving DecidableEq, Repr

def signal : Reply → DataFlags → Signal
  | .deferred, _ => .deferred
  | .temporalFailure, _ => .failed
  | .written _, flags => if flags.eof then if flags.noEndStream then .endedWithTrailers else .ended else .more

/-- What libnghttp2 offers: its buffer with what the last frame left there, and the header it puts on a frame of some
length with some flags. -/
structure Offer where
  buffer : Bytes
  framehd : ℕ → DataFlags → Bytes

/-- The octets that a consultation puts into the message, and how it answers. -/
structure Answer where
  octets : Bytes
  signal : Signal
  deriving DecidableEq, Repr

def Reply.octets : Reply → Bytes → Bytes
  | .written octets, buf => buf.take octets
  | _, _ => []

/-- A copying consultation: the payload is what was written into the buffer. -/
def consultPush (e : BodyEntry ε) (offer : Offer) : Option (Answer × BodyEntry ε) :=
  let (reply, flags, buf, e) := e.readPushBody offer.buffer
  some (⟨reply.octets buf, signal reply flags⟩, e)

/-- A consultation without a copy: libnghttp2 asks for the payload of the frame it serialised, unless it cancels the
frame, an empty one that ends the body ahead of trailers. -/
def consultShared (e : BodyEntry ε) (offer : Offer) : Option (Answer × BodyEntry ε) :=
  match e.readSharedBody offer.buffer.length with
  | (.written octets, flags, e) =>
    if octets = 0 ∧ flags.eof ∧ flags.noEndStream then some (⟨[], signal (.written octets) flags⟩, e)
    else do
      let e ← e.sendData (offer.framehd octets flags) octets
      some (⟨((e.records.getLast?).map SendRecord.payload).getD [], signal (.written octets) flags⟩, e)
  | (reply, flags, e) => some (⟨[], signal reply flags⟩, e)

def Signal.ends : Signal → Bool
  | .ended | .endedWithTrailers | .failed => true
  | .more | .deferred => false

/-- Consultations one after another; a body that has ended is not consulted again. -/
def drive (consult : BodyEntry ε → Offer → Option (Answer × BodyEntry ε)) :
    BodyEntry ε → List Offer → Option (List Answer × BodyEntry ε)
  | e, [] => some ([], e)
  | e, offer :: offers => do
    let (answer, e) ← consult e offer
    if answer.signal.ends then some ([answer], e)
    else
      let (answers, e) ← drive consult e offers
      some (answer :: answers, e)

/-! ## One adapter copies what the other hands over -/

namespace SharedOutcome

def chunk : SharedOutcome ε → Bytes
  | .wrote chunk | .eof chunk | .eofWithTrailers chunk => chunk
  | .defer | .fail _ => []

/-- The outcome with the length of its chunk in place of the chunk. -/
def copied : SharedOutcome ε → BodyOutcome ε
  | .wrote chunk => .wrote chunk.length
  | .eof chunk => .eof chunk.length
  | .eofWithTrailers chunk => .eofWithTrailers chunk.length
  | .defer => .defer
  | .fail error => .fail error

def signal : SharedOutcome ε → Signal
  | .wrote _ => .more
  | .eof _ => .ended
  | .eofWithTrailers _ => .endedWithTrailers
  | .defer => .deferred
  | .fail _ => .failed

end SharedOutcome

theorem drainInto_stop {data buf : Bytes} {written : ℕ} (h : buf.length ≤ written ∨ data = []) :
    drainInto data buf written = (written, data, buf) := by
  rw [drainInto, dif_neg]
  rintro ⟨hlt, hne⟩
  exact h.elim (fun hle => Nat.not_lt.mpr hle hlt) hne

theorem drainInto_eq (data buf : Bytes) :
    drainInto data buf 0 =
      (min data.length buf.length, data.drop buf.length, data.take buf.length ++ buf.drop data.length) := by
  by_cases hstop : buf.length ≤ 0 ∨ data = []
  · rw [drainInto_stop hstop]
    obtain hbuf | rfl := hstop
    · have hnil : buf = [] := List.eq_nil_of_length_eq_zero (by omega)
      simp [hnil]
    · simp
  · have hgoes : 0 < buf.length ∧ data ≠ [] := by
      rw [not_or] at hstop
      exact ⟨by omega, hstop.2⟩
    rw [drainInto, dif_pos hgoes, drainInto_stop]
    · simp only [List.take_zero, List.nil_append, Nat.zero_add, Nat.sub_zero]
      by_cases hle : data.length ≤ buf.length
      · rw [Nat.min_eq_left hle, List.drop_of_length_le (Nat.le_refl _), List.drop_of_length_le hle,
          List.take_of_length_le (Nat.le_refl _), List.take_of_length_le hle]
      · have hlt : buf.length < data.length := Nat.not_le.mp hle
        rw [Nat.min_eq_right hlt.le, List.drop_of_length_le (Nat.le_refl _), List.drop_of_length_le hlt.le]
    · by_cases hle : data.length ≤ buf.length
      · exact .inr (by simp [Nat.min_eq_left hle])
      · left
        simp only [List.take_zero, List.nil_append, Nat.zero_add, Nat.sub_zero, List.length_append, List.length_take,
          List.length_drop]
        omega

namespace Outgoing

/-- The buffer with a chunk at its front. -/
def copiedTo (chunk buf : Bytes) : Bytes := chunk ++ buf.drop chunk.length

theorem handOver_eq (o : Outgoing ε) (data buf : Bytes) :
    o.handOver data buf = ((o.splitOff data buf.length).1.copied, (o.splitOff data buf.length).2,
      copiedTo (o.splitOff data buf.length).1.chunk buf) := by
  rw [handOver, drainInto_eq, splitOff]
  by_cases hlong : buf.length < data.length
  · have hne : data.drop buf.length ≠ [] := by
      rw [Ne, List.drop_eq_nil_iff]
      omega
    have hmin : (data.take buf.length).length = buf.length := by
      rw [List.length_take]
      omega
    simp only [if_pos hlong, if_neg hne, SharedOutcome.copied, SharedOutcome.chunk, copiedTo, hmin]
    rw [Nat.min_eq_right hlong.le, List.drop_of_length_le hlong.le, List.drop_of_length_le (Nat.le_refl _)]
  · have hnil : data.drop buf.length = [] := List.drop_eq_nil_of_le (by omega)
    simp only [if_neg hlong, if_pos hnil, SharedOutcome.copied, SharedOutcome.chunk, copiedTo]
    rw [Nat.min_eq_left (by omega), List.take_of_length_le (by omega)]

theorem fillFrames_eq (frames : ℕ) (o : Outgoing ε) (buf : Bytes) :
    fillFrames frames o buf = ((takeFrames frames o buf.length).1.copied, (takeFrames frames o buf.length).2,
      copiedTo (takeFrames frames o buf.length).1.chunk buf) := by
  induction frames generalizing o with
  | zero => rfl
  | succ frames ih =>
    rw [fillFrames, takeFrames]
    cases o.body o.polled with
    | pending => rfl
    | ended => rfl
    | failed error => rfl
    | frame frame =>
      cases frame with
      | trailers fields => rfl
      | unknown => rfl
      | data data =>
        by_cases hempty : data = []
        · simp only [if_pos hempty]
          exact ih o.asked
        · simp only [if_neg hempty]
          exact handOver_eq o.asked data buf

theorem fill_eq (o : Outgoing ε) (buf : Bytes) :
    o.fill buf = ((o.take buf.length).1.copied, (o.take buf.length).2, copiedTo (o.take buf.length).1.chunk buf) := by
  rw [fill, take]
  cases o.leftover with
  | none => exact fillFrames_eq emptyFrameLimit o buf
  | some data => exact handOver_eq _ data buf

end Outgoing

/-! ## What a consultation takes of a body -/

def octetsOf : PollFrame ε → Bytes
  | .frame (.data data) => data
  | _ => []

def fieldsOf : PollFrame ε → Option HeaderMap
  | .frame (.trailers fields) => some fields
  | _ => none

/-- How a body that has given this answer ends. -/
def endingOf : PollFrame ε → Option Signal
  | .ended | .frame .unknown => some .ended
  | .frame (.trailers _) => some .endedWithTrailers
  | .failed _ => some .failed
  | .pending | .frame (.data _) => none

theorem ends_of_endingOf {answer : PollFrame ε} {signal : Signal} (h : endingOf answer = some signal) :
    signal.ends = true := by
  cases answer with
  | frame frame => cases frame <;> cases h <;> rfl
  | _ => cases h <;> rfl

/-- The data of the first answers of a body. -/
def gathered (body : ℕ → PollFrame ε) (polled : ℕ) : Bytes := (List.range polled).flatMap fun k => octetsOf (body k)

/-- The trailers among the first answers of a body. -/
def trailersOf (body : ℕ → PollFrame ε) (polled : ℕ) : List HeaderMap :=
  (List.range polled).filterMap fun k => fieldsOf (body k)

theorem gathered_succ (body : ℕ → PollFrame ε) (polled : ℕ) :
    gathered body (polled + 1) = gathered body polled ++ octetsOf (body polled) := by
  rw [gathered, List.range_succ, List.flatMap_append, List.flatMap_singleton]
  rfl

theorem trailersOf_succ (body : ℕ → PollFrame ε) (polled : ℕ) :
    trailersOf body (polled + 1) = trailersOf body polled ++ (fieldsOf (body polled)).toList := by
  rw [trailersOf, List.range_succ, List.filterMap_append]
  cases h : fieldsOf (body polled) <;> simp [trailersOf, h]

/-- The body has not ended in its first answers. -/
def Going (body : ℕ → PollFrame ε) (polled : ℕ) : Prop := ∀ k < polled, endingOf (body k) = none

theorem Going.succ {body : ℕ → PollFrame ε} {polled : ℕ} (h : Going body polled) (hlast : endingOf (body polled) = none) :
    Going body (polled + 1) := by
  intro k hk
  obtain hlt | rfl := Nat.lt_succ_iff_lt_or_eq.mp hk
  · exact h k hlt
  · exact hlast

theorem Going.trailersOf {body : ℕ → PollFrame ε} {polled : ℕ} (h : Going body polled) : trailersOf body polled = [] := by
  rw [Http2BodyBridges.trailersOf, List.filterMap_eq_nil_iff]
  intro k hk
  have hnone := h k (List.mem_range.mp hk)
  generalize body k = answer at hnone ⊢
  cases answer with
  | frame frame => cases frame <;> first | rfl | cases hnone
  | _ => rfl

/-- An adapter whose body goes on, and which has put `out` into the message. -/
structure Gathers (o : Outgoing ε) (out : Bytes) : Prop where
  octets : out ++ o.leftover.getD [] = gathered o.body o.polled
  going : Going o.body o.polled
  trailers : o.shared.trailers = []
  gauge : o.shared.bufferedHighWater ≤ 1

/-- What a consultation comes to. -/
structure Taken (o : Outgoing ε) (limit : ℕ) (out : Bytes) (outcome : SharedOutcome ε) (after : Outgoing ε) : Prop where
  body : after.body = o.body
  naming : after.naming = o.naming
  fits : outcome.chunk.length ≤ limit
  octets : out ++ outcome.chunk ++ after.leftover.getD [] = gathered o.body after.polled
  going : outcome.signal.ends = false → Going o.body after.polled
  ended : outcome.signal.ends = true → after.leftover = none ∧
    ∃ last, after.polled = last + 1 ∧ Going o.body last ∧ endingOf (o.body last) = some outcome.signal
  trailers : after.shared.trailers = (trailersOf o.body after.polled).map fun fields => (o.naming, fields)
  gauge : after.shared.bufferedHighWater ≤ 1
  failure : ∀ error, outcome = .fail error →
    ∃ cause last, error = .body cause ∧ after.polled = last + 1 ∧ o.body last = .failed cause

theorem Taken.of_splitOff {o : Outgoing ε} {data out : Bytes} (limit : ℕ) (hnone : o.leftover = none)
    (hoctets : out ++ data = gathered o.body o.polled) (hgoing : Going o.body o.polled) (htrailers : o.shared.trailers = [])
    (hgauge : o.shared.bufferedHighWater ≤ 1) :
    Taken o limit out (o.splitOff data limit).1 (o.splitOff data limit).2 := by
  have hstashed : o.shared.trailers = (trailersOf o.body o.polled).map fun fields => (o.naming, fields) := by
    rw [hgoing.trailersOf]
    exact htrailers
  rw [Outgoing.splitOff]
  split
  · rename_i hlong
    refine ⟨rfl, rfl, ?_, ?_, fun _ => hgoing, fun h => ?_, hstashed, ?_, ?_⟩
    · simp only [SharedOutcome.chunk, List.length_take]
      omega
    · simpa [SharedOutcome.chunk, Outgoing.holding] using hoctets
    · cases h
    · exact Nat.max_le.mpr ⟨hgauge, Nat.le_refl _⟩
    · rintro error ⟨⟩
  · rename_i hshort
    refine ⟨rfl, rfl, Nat.not_lt.mp hshort, ?_, fun _ => hgoing, fun h => ?_, hstashed, ?_, ?_⟩
    · simpa [SharedOutcome.chunk, Outgoing.holding, hnone] using hoctets
    · cases h
    · simpa [Outgoing.holding, Shared.noteBuffered, hnone] using hgauge
    · rintro error ⟨⟩

theorem Gathers.asked {o : Outgoing ε} {out : Bytes} (h : Gathers o out) (hlast : endingOf (o.body o.polled) = none)
    (hempty : octetsOf (o.body o.polled) = []) : Gathers o.asked out := by
  refine ⟨?_, h.going.succ hlast, h.trailers, h.gauge⟩
  have hoctets := h.octets
  rw [Outgoing.asked, gathered_succ, hempty, List.append_nil]
  exact hoctets

theorem Taken.of_gathers {o after : Outgoing ε} {out : Bytes} {outcome : SharedOutcome ε} (limit : ℕ)
    (h : Gathers after out) (hbody : after.body = o.body) (hnaming : after.naming = o.naming) (hchunk : outcome.chunk = [])
    (hmore : outcome.signal.ends = false) : Taken o limit out outcome after := by
  refine ⟨hbody, hnaming, ?_, ?_, fun _ => hbody ▸ h.going, fun hends => ?_, ?_, h.gauge, ?_⟩
  · rw [hchunk]
    exact Nat.zero_le _
  · rw [hchunk, List.append_nil, ← hbody]
    exact h.octets
  · rw [hmore] at hends
    cases hends
  · rw [← hbody, h.going.trailersOf]
    exact h.trailers
  · rintro error rfl
    cases hmore

theorem Taken.of_ending {o after : Outgoing ε} {out : Bytes} {outcome : SharedOutcome ε} (h : Gathers o out) (limit : ℕ)
    (hnone : o.leftover = none) (hends : endingOf (o.body o.polled) = some outcome.signal) (hchunk : outcome.chunk = [])
    (hempty : octetsOf (o.body o.polled) = []) (hsame : { after with shared := o.shared } = o.asked)
    (htrailers : after.shared.trailers = (fieldsOf (o.body o.polled)).toList.map fun fields => (o.naming, fields))
    (hgauge : after.shared.bufferedHighWater = o.shared.bufferedHighWater)
    (hfailure : ∀ error, outcome = .fail error → ∃ cause, error = .body cause ∧ o.body o.polled = .failed cause) :
    Taken o limit out outcome after := by
  obtain ⟨body, naming, polled, shared, leftover⟩ := after
  cases hsame
  refine ⟨rfl, rfl, ?_, ?_, fun hmore => ?_, fun _ => ⟨hnone, o.polled, rfl, h.going, hends⟩, ?_, ?_, ?_⟩
  · rw [hchunk]
    exact Nat.zero_le _
  · rw [hchunk, List.append_nil, gathered_succ, hempty, List.append_nil]
    exact h.octets
  · rw [ends_of_endingOf hends] at hmore
    cases hmore
  · rw [trailersOf_succ, h.going.trailersOf]
    exact htrailers
  · exact hgauge.trans_le h.gauge
  · intro error herror
    obtain ⟨cause, rfl, hcause⟩ := hfailure error herror
    exact ⟨cause, o.polled, rfl, rfl, hcause⟩

theorem taken_takeFrames (frames : ℕ) {o : Outgoing ε} {out : Bytes} (h : Gathers o out) (hnone : o.leftover = none)
    (limit : ℕ) : Taken o limit out (o.takeFrames frames limit).1 (o.takeFrames frames limit).2 := by
  induction frames generalizing o with
  | zero => exact .of_gathers limit h rfl rfl rfl rfl
  | succ frames ih =>
    rw [Outgoing.takeFrames]
    cases hanswer : o.body o.polled with
    | pending =>
      exact .of_gathers limit (h.asked (by rw [hanswer]; rfl) (by rw [hanswer]; rfl)) rfl rfl rfl rfl
    | ended =>
      exact .of_ending h limit hnone (by rw [hanswer]; rfl) rfl (by rw [hanswer]; rfl) rfl (by rw [hanswer]; exact h.trailers)
        rfl (by rintro error ⟨⟩)
    | failed error =>
      refine .of_ending h limit hnone (by rw [hanswer]; rfl) rfl (by rw [hanswer]; rfl) rfl
        (by rw [hanswer]; exact h.trailers) rfl ?_
      rintro error' ⟨⟩
      exact ⟨error, rfl, hanswer⟩
    | frame frame =>
      cases frame with
      | trailers fields =>
        refine .of_ending h limit hnone (by rw [hanswer]; rfl) rfl (by rw [hanswer]; rfl) rfl ?_ rfl (by rintro error ⟨⟩)
        rw [hanswer]
        exact congrArg (· ++ _) h.trailers
      | unknown =>
        exact .of_ending h limit hnone (by rw [hanswer]; rfl) rfl (by rw [hanswer]; rfl) rfl
          (by rw [hanswer]; exact h.trailers) rfl (by rintro error ⟨⟩)
      | data data =>
        have hgoing : Going o.body (o.polled + 1) := h.going.succ (by rw [hanswer]; rfl)
        by_cases hempty : data = []
        · simp only [if_pos hempty]
          have hasked := h.asked (by rw [hanswer]; rfl) (by rw [hanswer, hempty]; rfl)
          obtain ⟨hbody, hnaming, hfits, hoctets, hgoes, hended, htrailers, hgauge, hfailure⟩ := ih hasked hnone
          exact ⟨hbody, hnaming, hfits, hoctets, hgoes, hended, htrailers, hgauge, hfailure⟩
        · simp only [if_neg hempty]
          have hoctets : out ++ data = gathered o.body (o.polled + 1) := by
            have hbefore := h.octets
            rw [hnone, Option.getD_none, List.append_nil] at hbefore
            rw [gathered_succ, hanswer, hbefore]
            rfl
          obtain ⟨hbody, hnaming, hfits, hoctets, hgoes, hended, htrailers, hgauge, hfailure⟩ :=
            Taken.of_splitOff (o := o.asked) limit hnone hoctets hgoing h.trailers h.gauge
          exact ⟨hbody, hnaming, hfits, hoctets, hgoes, hended, htrailers, hgauge, hfailure⟩

theorem taken_take {o : Outgoing ε} {out : Bytes} (h : Gathers o out) (limit : ℕ) :
    Taken o limit out (o.take limit).1 (o.take limit).2 := by
  cases hleftover : o.leftover with
  | none =>
    rw [Outgoing.take, hleftover]
    exact taken_takeFrames emptyFrameLimit h hleftover limit
  | some data =>
    rw [Outgoing.take, hleftover]
    have hoctets := h.octets
    rw [hleftover, Option.getD_some] at hoctets
    obtain ⟨hbody, hnaming, hfits, hoctets, hgoes, hended, htrailers, hgauge, hfailure⟩ :=
      Taken.of_splitOff (o := { o with leftover := none }) limit rfl hoctets h.going h.trailers h.gauge
    exact ⟨hbody, hnaming, hfits, hoctets, hgoes, hended, htrailers, hgauge, hfailure⟩

theorem take_of_leftover {o : Outgoing ε} (h : o.leftover.isSome = true) (limit : ℕ) :
    (o.take limit).1.chunk.length ≤ limit ∧ (o.take limit).2.polled = o.polled := by
  obtain ⟨data, hdata⟩ := Option.isSome_iff_exists.mp h
  rw [Outgoing.take, hdata]
  simp only [Outgoing.splitOff]
  split
  · exact ⟨List.length_take_le .., rfl⟩
  · exact ⟨Nat.not_lt.mp ‹_›, rfl⟩

/-! ## One consultation -/

/-- The entry behind a consultation, but for what is staged and recorded. -/
def BodyEntry.took (e : BodyEntry ε) (outcome : SharedOutcome ε) (source : Outgoing ε) : BodyEntry ε :=
  { e with
    source
    trailersReady := e.trailersReady || outcome.signal = .endedWithTrailers
    parked := match outcome with
      | .fail error => some error
      | _ => e.parked }

theorem take_copiedTo {chunk buf : Bytes} : (Outgoing.copiedTo chunk buf).take chunk.length = chunk := by
  rw [Outgoing.copiedTo, List.take_left]

theorem consultPush_eq (e : BodyEntry ε) (offer : Offer) {outcome : SharedOutcome ε} {source : Outgoing ε}
    (htake : e.source.take offer.buffer.length = (outcome, source)) (hfits : outcome.chunk.length ≤ offer.buffer.length) :
    consultPush e offer = some (⟨outcome.chunk, outcome.signal⟩, e.took outcome source) := by
  have hfill : e.source.fill (List.replicate offer.buffer.length 0) =
      (outcome.copied, source, Outgoing.copiedTo outcome.chunk (List.replicate offer.buffer.length 0)) := by
    rw [Outgoing.fill_eq, List.length_replicate, htake]
  rw [consultPush, BodyEntry.readPushBody]
  simp only [hfill]
  cases outcome with
  | wrote chunk =>
    simp only [SharedOutcome.chunk] at hfits
    simp [SharedOutcome.copied, SharedOutcome.chunk, hfits, Reply.octets, take_copiedTo, signal, SharedOutcome.signal,
      BodyEntry.took]
  | eof chunk =>
    simp only [SharedOutcome.chunk] at hfits
    simp [SharedOutcome.copied, SharedOutcome.chunk, hfits, Reply.octets, take_copiedTo, signal, SharedOutcome.signal,
      BodyEntry.took]
  | eofWithTrailers chunk =>
    simp only [SharedOutcome.chunk] at hfits
    simp [SharedOutcome.copied, SharedOutcome.chunk, hfits, Reply.octets, take_copiedTo, signal, SharedOutcome.signal,
      BodyEntry.took]
  | defer => simp [SharedOutcome.copied, SharedOutcome.chunk, Reply.octets, signal, SharedOutcome.signal, BodyEntry.took]
  | fail error =>
    simp [SharedOutcome.copied, SharedOutcome.chunk, Reply.octets, signal, SharedOutcome.signal, BodyEntry.took,
      BodyEntry.park]

theorem consultShared_eq (e : BodyEntry ε) (staged : Option Bytes) (records : List SendRecord) (offer : Offer)
    {outcome : SharedOutcome ε} {source : Outgoing ε} (htake : e.source.take offer.buffer.length = (outcome, source))
    (hfits : outcome.chunk.length ≤ offer.buffer.length) :
    ∃ staged' records', consultShared { e with staged, records } offer =
      some (⟨outcome.chunk, outcome.signal⟩, { e.took outcome source with staged := staged', records := records' }) := by
  rw [consultShared, BodyEntry.readSharedBody, htake]
  have hlt := Nat.not_lt.mpr hfits
  cases outcome with
  | wrote chunk =>
    simp only [SharedOutcome.chunk] at hlt
    simp [BodyEntry.stage, SharedOutcome.chunk, hlt, BodyEntry.sendData, signal, SharedOutcome.signal, BodyEntry.took]
  | eof chunk =>
    simp only [SharedOutcome.chunk] at hlt
    simp [BodyEntry.stage, SharedOutcome.chunk, hlt, BodyEntry.sendData, signal, SharedOutcome.signal, BodyEntry.took]
  | eofWithTrailers chunk =>
    simp only [SharedOutcome.chunk] at hlt
    by_cases hempty : chunk = []
    · simp [BodyEntry.stage, SharedOutcome.chunk, hempty, signal, SharedOutcome.signal, BodyEntry.took]
    · simp [BodyEntry.stage, SharedOutcome.chunk, hlt, hempty, BodyEntry.sendData, signal, SharedOutcome.signal,
        BodyEntry.took]
  | defer => simp [SharedOutcome.chunk, signal, SharedOutcome.signal, BodyEntry.took]
  | fail error => simp [SharedOutcome.chunk, signal, SharedOutcome.signal, BodyEntry.took, BodyEntry.park]

/-! ## Runs -/

/-- Entries that differ in what is staged and recorded at most. -/
def Alike (push shared : BodyEntry ε) : Prop := ∃ staged records, shared = { push with staged, records }

/-- Where a run of consultations stands, from an entry that had put `out` into the message. -/
structure Faithful (body : ℕ → PollFrame ε) (naming : ℕ) (out : Bytes) (offers : List Offer) (answers : List Answer)
    (e : BodyEntry ε) : Prop where
  sameBody : e.source.body = body
  sameNaming : e.source.naming = naming
  fits : ∀ pair ∈ answers.zip offers, pair.1.octets.length ≤ pair.2.buffer.length
  octets : out ++ (answers.map Answer.octets).flatten ++ e.source.leftover.getD [] = gathered body e.source.polled
  going : (∀ answer ∈ answers, answer.signal.ends = false) → Going body e.source.polled
  ended : ∀ answer ∈ answers, answer.signal.ends = true → e.source.leftover = none ∧
    ∃ last, e.source.polled = last + 1 ∧ Going body last ∧ endingOf (body last) = some answer.signal
  trailers : e.source.shared.trailers = (trailersOf body e.source.polled).map fun fields => (naming, fields)
  stashes : (trailersOf body e.source.polled).length = (answers.filter (·.signal = .endedWithTrailers)).length
  once : (trailersOf body e.source.polled).length ≤ 1
  gauge : e.source.shared.bufferedHighWater ≤ 1
  failure : ∀ error, e.parked = some error →
    ∃ cause last, error = .body cause ∧ e.source.polled = last + 1 ∧ body last = .failed cause

theorem trailersOf_ended {body : ℕ → PollFrame ε} {last : ℕ} {signal : Signal} (hgoing : Going body last)
    (hends : endingOf (body last) = some signal) :
    (trailersOf body (last + 1)).length = if signal = .endedWithTrailers then 1 else 0 := by
  rw [trailersOf_succ, hgoing.trailersOf]
  cases hanswer : body last with
  | frame frame =>
    rw [hanswer] at hends
    cases frame <;> cases hends <;> rfl
  | _ =>
    rw [hanswer] at hends
    cases hends <;> rfl

theorem Taken.faithful {e : BodyEntry ε} {offer : Offer} {out : Bytes} {outcome : SharedOutcome ε} {source : Outgoing ε}
    (h : Taken e.source offer.buffer.length out outcome source) (hparked : e.parked = none) (offers : List Offer) :
    Faithful e.source.body e.source.naming out (offer :: offers) [⟨outcome.chunk, outcome.signal⟩]
      (e.took outcome source) := by
  have hcount : (trailersOf e.source.body source.polled).length = if outcome.signal = .endedWithTrailers then 1 else 0 := by
    cases hends : outcome.signal.ends with
    | false =>
      rw [(h.going hends).trailersOf, if_neg, List.length_nil]
      intro heq
      rw [heq] at hends
      cases hends
    | true =>
      obtain ⟨-, last, hpolled, hgoing, hlast⟩ := h.ended hends
      rw [hpolled]
      exact trailersOf_ended hgoing hlast
  refine ⟨h.body, h.naming, ?_, ?_, fun hgoes => ?_, ?_, h.trailers, ?_, ?_, h.gauge, ?_⟩
  · simpa using h.fits
  · rw [List.map_singleton, List.flatten_singleton]
    exact h.octets
  · exact h.going (hgoes _ (List.mem_singleton_self _))
  · intro answer hanswer
    rw [List.mem_singleton] at hanswer
    rw [hanswer]
    exact h.ended
  · by_cases heq : outcome.signal = .endedWithTrailers
    · simp [BodyEntry.took, hcount, heq]
    · simp [BodyEntry.took, hcount, heq]
  · simp only [BodyEntry.took, hcount]
    split <;> omega
  · intro error herror
    cases houtcome : outcome with
    | fail cause =>
      rw [houtcome] at herror
      cases herror
      exact h.failure _ houtcome
    | _ =>
      rw [houtcome] at herror
      exact absurd (hparked.symm.trans herror) (by rintro ⟨⟩)

theorem Faithful.cons {body : ℕ → PollFrame ε} {naming : ℕ} {out : Bytes} {offer : Offer} {offers : List Offer}
    {answer : Answer} {answers : List Answer} {e : BodyEntry ε}
    (h : Faithful body naming (out ++ answer.octets) offers answers e)
    (hfits : answer.octets.length ≤ offer.buffer.length) (hmore : answer.signal.ends = false) :
    Faithful body naming out (offer :: offers) (answer :: answers) e := by
  refine ⟨h.sameBody, h.sameNaming, ?_, ?_, fun hgoes => ?_, ?_, h.trailers, ?_, h.once, h.gauge, h.failure⟩
  · rintro pair hpair
    obtain rfl | hpair := List.mem_cons.mp hpair
    · exact hfits
    · exact h.fits pair hpair
  · have hoctets := h.octets
    rw [List.append_assoc out] at hoctets
    exact hoctets
  · exact h.going fun other hother => hgoes other (List.mem_cons_of_mem _ hother)
  · intro other hother hends
    obtain rfl | hother := List.mem_cons.mp hother
    · rw [hmore] at hends
      cases hends
    · exact h.ended other hother hends
  · have hne : answer.signal ≠ .endedWithTrailers := by
      intro heq
      rw [heq] at hmore
      cases hmore
    rw [h.stashes, List.filter_cons_of_neg (by simpa using hne)]

theorem Faithful.nil {e : BodyEntry ε} {out : Bytes} (h : Gathers e.source out) (hparked : e.parked = none)
    (offers : List Offer) : Faithful e.source.body e.source.naming out offers [] e := by
  have hnone := h.going.trailersOf
  refine ⟨rfl, rfl, by simp, by simpa using h.octets, fun _ => h.going, by simp, ?_, ?_, ?_, h.gauge, ?_⟩
  · rw [hnone]
    exact h.trailers
  · rw [hnone]
    rfl
  · rw [hnone]
    exact Nat.zero_le _
  · rintro error herror
    exact absurd (hparked.symm.trans herror) (by rintro ⟨⟩)

theorem Taken.gathers {o after : Outgoing ε} {limit : ℕ} {out : Bytes} {outcome : SharedOutcome ε}
    (h : Taken o limit out outcome after) (hmore : outcome.signal.ends = false) : Gathers after (out ++ outcome.chunk) := by
  have hgoing := h.going hmore
  refine ⟨?_, ?_, ?_, h.gauge⟩
  · rw [h.body]
    exact h.octets
  · rw [h.body]
    exact hgoing
  · rw [h.trailers, hgoing.trailersOf]
    rfl

theorem drive_of_ends {consult : BodyEntry ε → Offer → Option (Answer × BodyEntry ε)} {e after : BodyEntry ε}
    {offer : Offer} {answer : Answer} (offers : List Offer) (h : consult e offer = some (answer, after))
    (hends : answer.signal.ends = true) : drive consult e (offer :: offers) = some ([answer], after) := by
  simp [drive, h, hends]

theorem drive_of_more {consult : BodyEntry ε → Offer → Option (Answer × BodyEntry ε)} {e after last : BodyEntry ε}
    {offer : Offer} {offers : List Offer} {answer : Answer} {answers : List Answer}
    (h : consult e offer = some (answer, after)) (hmore : answer.signal.ends = false)
    (hrest : drive consult after offers = some (answers, last)) :
    drive consult e (offer :: offers) = some (answer :: answers, last) := by
  simp [drive, h, hmore, hrest]

theorem drive_agree {push shared : BodyEntry ε} {out : Bytes} (h : Alike push shared) (hgathers : Gathers push.source out)
    (hparked : push.parked = none) (offers : List Offer) :
    ∃ answers push' shared', drive consultPush push offers = some (answers, push') ∧
      drive consultShared shared offers = some (answers, shared') ∧ Alike push' shared' ∧
      Faithful push.source.body push.source.naming out offers answers push' := by
  induction offers generalizing push shared out with
  | nil => exact ⟨[], push, shared, rfl, rfl, h, .nil hgathers hparked []⟩
  | cons offer offers ih =>
    obtain ⟨staged, records, rfl⟩ := h
    have hpush := taken_take hgathers offer.buffer.length
    generalize htake : push.source.take offer.buffer.length = taken at hpush
    obtain ⟨outcome, source⟩ := taken
    have hcopied := consultPush_eq push offer htake hpush.fits
    obtain ⟨staged', records', hshared⟩ := consultShared_eq push staged records offer htake hpush.fits
    cases hends : outcome.signal.ends with
    | true =>
      exact ⟨_, _, _, drive_of_ends offers hcopied hends, drive_of_ends offers hshared hends, ⟨staged', records', rfl⟩,
        hpush.faithful hparked offers⟩
    | false =>
      have hkept : (push.took outcome source).parked = none := by
        cases outcome with
        | fail error => cases hends
        | _ => exact hparked
      obtain ⟨answers, push', shared', hdrive, hdrive', halike, hfaithful⟩ :=
        ih ⟨staged', records', rfl⟩ (hpush.gathers hends) hkept
      refine ⟨_, push', shared', drive_of_more hcopied hends hdrive, drive_of_more hshared hends hdrive', halike, ?_⟩
      have hbody : (push.took outcome source).source.body = push.source.body := hpush.body
      have hnaming : (push.took outcome source).source.naming = push.source.naming := hpush.naming
      rw [hbody, hnaming] at hfaithful
      exact hfaithful.cons hpush.fits hends

theorem consult_of_leftover {push shared : BodyEntry ε} (h : Alike push shared) (hheld : push.source.leftover.isSome = true)
    (offer : Offer) :
    ∃ answer push' shared', consultPush push offer = some (answer, push') ∧
      consultShared shared offer = some (answer, shared') ∧ push'.source.polled = push.source.polled ∧
      shared'.source.polled = push.source.polled := by
  obtain ⟨staged, records, rfl⟩ := h
  obtain ⟨hfits, hpolled⟩ := take_of_leftover hheld offer.buffer.length
  obtain ⟨staged', records', hshared⟩ := consultShared_eq push staged records offer rfl hfits
  exact ⟨_, _, _, consultPush_eq push offer rfl hfits, hshared, hpolled, hpolled⟩

/-- Whatever the body and the offers, both bridges give the same octets and signals and leave the same behind; what they
give is what the body yields, a chunk at most held back, and neither polls the body meanwhile. -/
theorem bridges_agree (body : ℕ → PollFrame ε) (naming : ℕ) (offers : List Offer) :
    ∃ answers push shared, drive consultPush (.new body naming) offers = some (answers, push) ∧
      drive consultShared (.new body naming) offers = some (answers, shared) ∧
      shared.source = push.source ∧ shared.trailersReady = push.trailersReady ∧ shared.parked = push.parked ∧
      Faithful body naming [] offers answers push ∧
      (push.source.leftover.isSome = true → ∀ offer, ∃ answer push' shared', consultPush push offer = some (answer, push') ∧
        consultShared shared offer = some (answer, shared') ∧ push'.source.polled = push.source.polled ∧
        shared'.source.polled = push.source.polled) := by
  have hgathers : Gathers (BodyEntry.new body naming).source [] := by
    refine ⟨rfl, fun k hk => ?_, rfl, Nat.zero_le _⟩
    exact absurd hk (Nat.not_lt_zero k)
  obtain ⟨answers, push, shared, hpush, hshared, halike, hfaithful⟩ :=
    @drive_agree ε (.new body naming) (.new body naming) _ ⟨none, [], rfl⟩ hgathers rfl offers
  have hsame : shared.source = push.source ∧ shared.trailersReady = push.trailersReady ∧ shared.parked = push.parked := by
    obtain ⟨staged, records, rfl⟩ := halike
    exact ⟨rfl, rfl, rfl⟩
  exact ⟨answers, push, shared, hpush, hshared, hsame.1, hsame.2.1, hsame.2.2, hfaithful, consult_of_leftover halike⟩

end Ngnet.Http2BodyBridges
