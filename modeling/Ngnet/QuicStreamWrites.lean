import Ngnet.QuicRetention

/-!
# Stream writes and their re-offers

The crate `ngnet-quic`: the writing half of `stream_io.rs`. ngtcp2 is a parameter of every call:
given what is handed to it, it answers as it likes, except that it accepts no more than it was
pointed at. The bounded path is told how much one packet holds, and withholds the end-of-stream
marker when that is not the whole offer; the owning path hands over everything and never does.

`Reoffers` is the caller's side: what was not accepted is offered again, cut into ranges in any
way, on either path. Clocks, packet info and the diagnostics build are left out.
-/

namespace Ngnet.QuicStreamWrites
open QmuxVarints QmuxStreams QuicRetention

/-! ## ngtcp2 -/

/-- `NGTCP2_WRITE_STREAM_FLAG_NONE` and `NGTCP2_WRITE_STREAM_FLAG_FIN`. -/
inductive WriteFlag | none | fin
  deriving DecidableEq, Repr

/-- What one call of `ngtcp2_conn_writev_stream` is given. -/
structure Submission where
  stream : StreamId
  data : Bytes
  flags : WriteFlag
  deriving DecidableEq, Repr

inductive NativeError
  | streamDataBlocked
  | streamShutWr
  | closing
  | draining
  | other (code : ℤ)
  deriving DecidableEq, Repr

/-- What it answers: a datagram of `len` bytes with `*pdatalen`; zero, with the connection credit
that is left then; or an error. -/
inductive Answer
  | datagram (len : ℕ) (accepted : ℤ)
  | zero (maxDataLeft : ℕ)
  | error (code : NativeError)
  deriving DecidableEq, Repr

/-- A behaviour of ngtcp2, which accepts a prefix of what it is pointed at. -/
structure Ngtcp2 where
  answer : Submission → Answer
  accepts_le : ∀ submission len accepted,
    answer submission = .datagram len accepted → accepted ≤ submission.data.length

/-! ## Writes -/

inductive StreamWrite
  | datagram (len accepted : ℕ)
  | datagramWithoutStream (len : ℕ)
  | streamBlocked
  | connectionBlocked
  | blocked
  | idle
  deriving DecidableEq, Repr

inductive WriteError
  | invalidInput (message : String)
  | native (code : NativeError) (message : String)
  deriving DecidableEq, Repr

structure OwnedWrite where
  outcome : StreamWrite
  unsent : OwnedBytes
  deriving DecidableEq, Repr

/-- The part of a connection that writes touch, with a record of what ngtcp2 was handed. -/
structure Conn where
  retained : Retained := {}
  submitted : List Submission := []

def streamFlags (fin stagedComplete : Bool) : WriteFlag :=
  if fin && stagedComplete then .fin else .none

/-- `submit_one_vec`: nothing staged is handed over as a null vector of length zero. -/
def Conn.submitOneVec (c : Conn) (stream : StreamId) (staged : Option Bytes) (flags : WriteFlag)
    (ngtcp2 : Ngtcp2) : Except WriteError StreamWrite × Conn :=
  let submission : Submission := ⟨stream, staged.getD [], flags⟩
  let answer := ngtcp2.answer submission
  let taken := match answer with
    | .datagram _ accepted => if 0 ≤ accepted then accepted.toNat else 0
    | _ => 0
  let retained := if staged.isSome then c.retained.commit stream taken else c.retained
  let outcome := match answer with
    | .datagram len accepted =>
      if 0 ≤ accepted then .ok (.datagram len taken) else .ok (.datagramWithoutStream len)
    | .zero maxDataLeft => if maxDataLeft = 0 then .ok .connectionBlocked else .ok .blocked
    | .error .streamDataBlocked => .ok .streamBlocked
    | .error .streamShutWr =>
      .error (.native .streamShutWr "the write side of this stream is already closed")
    | .error .closing => .ok .idle
    | .error .draining => .ok .idle
    | .error code => .error (.native code "could not write stream data")
  (outcome, ⟨retained, c.submitted ++ [submission]⟩)

def noRoom : WriteError := .invalidInput "a datagram buffer must have room to write into"

/-- `write_stream_vectored`; `none` is the panic of an allocation that is too large. -/
def Conn.writeStreamVectored (c : Conn) (destLen : ℕ) (stream : StreamId) (ranges : List Bytes) (fin : Bool)
    (maxTxUdpPayloadSize : ℕ) (ngtcp2 : Ngtcp2) : Option (Except WriteError StreamWrite × Conn) :=
  if destLen = 0 then some (.error noRoom, c)
  else (c.retained.stageManyBounded stream ranges maxTxUdpPayloadSize).map fun ((staged, stagedComplete), retained) =>
    { c with retained }.submitOneVec stream staged (streamFlags fin stagedComplete) ngtcp2

/-- How many bytes an outcome reports as accepted. -/
def StreamWrite.accepted : StreamWrite → ℕ
  | .datagram _ accepted => accepted
  | _ => 0

def Conn.writeStreamOwned (c : Conn) (destLen : ℕ) (stream : StreamId) (data : OwnedBytes) (fin : Bool)
    (ngtcp2 : Ngtcp2) : Except WriteError OwnedWrite × Conn :=
  if destLen = 0 then (.error noRoom, c)
  else
    let flags := if fin then .fin else .none
    let (staged, retained) := c.retained.stageOwned stream data
    match { c with retained }.submitOneVec stream staged flags ngtcp2 with
    | (.error error, c) => (.error error, c)
    | (.ok outcome, c) => (.ok ⟨outcome, (data.splitTo outcome.accepted).2⟩, c)

/-! ## The caller -/

/-- The bytes that an offer holds. -/
def offeredBytes : Offer → Bytes
  | .borrowed ranges _ => ranges.flatten
  | .owned bytes => bytes.asSlice

/-- How a caller offers what is left, and how ngtcp2 behaves during the call. -/
structure Turn where
  offer : Offer
  destLen : ℕ
  fin : Bool
  ngtcp2 : Ngtcp2

def reported : Except WriteError StreamWrite → ℕ
  | .ok outcome => outcome.accepted
  | .error _ => 0

/-- What was offered to a call, what it reported, what it gave back on the owning path, what it
handed to ngtcp2, and the chunks it added. -/
structure Call where
  rest : Bytes
  fin : Bool
  outcome : Except WriteError StreamWrite
  unsent : Option OwnedBytes
  submitted : List Submission
  retained : List Chunk

def Call.accepted (call : Call) : ℕ := reported call.outcome

def Turn.write (turn : Turn) (stream : StreamId) (c : Conn) :
    Option ((Except WriteError StreamWrite × Option OwnedBytes) × Conn) :=
  match turn.offer with
  | .borrowed ranges limit =>
    (c.writeStreamVectored turn.destLen stream ranges turn.fin limit turn.ngtcp2).map fun (outcome, d) =>
      ((outcome, none), d)
  | .owned bytes =>
    let (result, d) := c.writeStreamOwned turn.destLen stream bytes turn.fin turn.ngtcp2
    some ((result.map OwnedWrite.outcome, result.toOption.map OwnedWrite.unsent), d)

def Turn.call (turn : Turn) (stream : StreamId) (c : Conn) : Option (Call × Conn) :=
  (turn.write stream c).map fun ((outcome, unsent), d) =>
    (⟨offeredBytes turn.offer, turn.fin, outcome, unsent, d.submitted.drop c.submitted.length,
      (d.retained.entry stream).chunks.drop (c.retained.entry stream).chunks.length⟩, d)

/-- Successive calls, each of which is offered what those before it left. -/
inductive Reoffers (stream : StreamId) : Conn → Bytes → List Call → Conn → Bytes → Prop
  | stop (c : Conn) (rest : Bytes) : Reoffers stream c rest [] c rest
  | turn {c d e : Conn} {rest left : Bytes} {turn : Turn} {call : Call} {calls : List Call}
      (offers : offeredBytes turn.offer = rest) (called : turn.call stream c = some (call, d))
      (more : Reoffers stream d (rest.drop call.accepted) calls e left) :
      Reoffers stream c rest (call :: calls) e left

/-! ## One call -/

/-- The offset behind `n` more bytes. -/
def offsetAfter (base n : ℕ) : ℕ := if n = 0 then base else (base + n) % 2 ^ 64

theorem offsetAfter_add (base n k : ℕ) : offsetAfter (offsetAfter base n) k = offsetAfter base (n + k) := by
  rcases Nat.eq_zero_or_pos n with rfl | hn
  · simp [offsetAfter]
  · rcases Nat.eq_zero_or_pos k with rfl | hk
    · simp [offsetAfter, hn.ne']
    · simp [offsetAfter, hn.ne', hk.ne', Nat.add_assoc]

section Calls
variable {r : Retained} {stream : StreamId}

/-- The stream behind a write that accepted `n` bytes. -/
def written (s : Stream) (payload : Payload) (n : ℕ) : Stream :=
  if n = 0 then s else ⟨s.chunks ++ [⟨payload, s.nextOffset, n⟩], (s.nextOffset + n) % 2 ^ 64⟩

theorem nextOffset_written (s : Stream) (payload : Payload) (n : ℕ) :
    (written s payload n).nextOffset = offsetAfter s.nextOffset n := by
  rw [written, offsetAfter]
  split <;> rfl

theorem chunks_written (s : Stream) (payload : Payload) (n : ℕ) :
    (written s payload n).chunks.drop s.chunks.length = if n = 0 then [] else [⟨payload, s.nextOffset, n⟩] := by
  rw [written]
  split <;> simp

theorem submitOneVec_spec {c : Conn} {offer : Offer} {staged : Option Bytes} (flags : WriteFlag) (ngtcp2 : Ngtcp2)
    (hstage : r.stage stream offer = some (staged, c.retained)) :
    let result := c.submitOneVec stream staged flags ngtcp2
    reported result.1 ≤ offer.staged.length ∧
      result.2.retained.entry stream = written (r.entry stream) offer.payload (reported result.1) ∧
      result.2.submitted = c.submitted ++ [⟨stream, offer.staged, flags⟩] := by
  have hdata : staged.getD [] = offer.staged ∧ (staged.isSome = false → c.retained = r) ∧
      (staged.isSome = true → c.retained = offering r stream offer) := by
    rcases stage_cases r stream offer with ⟨hnil, h | h⟩ | ⟨-, h⟩
    · rw [h] at hstage
      cases hstage
    · obtain ⟨rfl, hretained⟩ := Prod.mk.inj (Option.some.inj (hstage.symm.trans h))
      simp [hnil, hretained]
    · obtain ⟨rfl, hretained⟩ := Prod.mk.inj (Option.some.inj (hstage.symm.trans h))
      simp [hretained]
  obtain ⟨hdata, hnone, hsome⟩ := hdata
  intro result
  let answer := ngtcp2.answer ⟨stream, offer.staged, flags⟩
  have hanswer : ngtcp2.answer ⟨stream, staged.getD [], flags⟩ = answer := by rw [hdata]
  have hstart := ngtcp2.accepts_le ⟨stream, offer.staged, flags⟩
  -- what is committed is what is reported
  have hreport : result.2.retained =
      (if staged.isSome then c.retained.commit stream (reported result.1) else c.retained) ∧
      reported result.1 ≤ offer.staged.length := by
    simp only [result, Conn.submitOneVec, hanswer]
    cases h : answer with
    | datagram len accepted =>
      have hle := hstart len accepted h
      change accepted ≤ offer.staged.length at hle
      by_cases hpos : 0 ≤ accepted
      · simp only [if_pos hpos, reported, StreamWrite.accepted]
        exact ⟨trivial, by omega⟩
      · simp [hpos, reported, StreamWrite.accepted]
    | zero maxDataLeft => by_cases hleft : maxDataLeft = 0 <;> simp [hleft, reported, StreamWrite.accepted]
    | error code => cases code <;> simp [reported, StreamWrite.accepted]
  obtain ⟨hcommit, hle⟩ := hreport
  refine ⟨hle, ?_, ?_⟩
  · rw [hcommit]
    cases hstaged : staged.isSome with
    | true => rw [if_pos rfl, hsome hstaged, commit_offering hle, entry_insert, if_pos rfl, written]
    | false =>
      have hempty : offer.staged = [] := by
        rw [← hdata, Option.isSome_eq_false_iff.mp hstaged |> Option.isNone_iff_eq_none.mp]
        rfl
      rw [hempty, List.length_nil, Nat.le_zero] at hle
      rw [if_neg (by simp), hnone hstaged, hle, written, if_pos rfl]
  · simp only [result, Conn.submitOneVec, hdata]

theorem splitTo_rest (bytes : OwnedBytes) (n : ℕ) : (bytes.splitTo n).2.asSlice = bytes.asSlice.drop n := by
  rw [OwnedBytes.asSlice_eq, OwnedBytes.asSlice_eq, List.drop_drop]
  show (bytes.store.bytes.take bytes.stop).drop (bytes.start + min n bytes.len) = _
  rcases Nat.le_total n bytes.len with hle | hle
  · rw [min_eq_left hle]
  · have hlen := bytes.len_eq
    have hstart := bytes.start_le
    rw [min_eq_right hle, List.drop_eq_nil_of_le (by simp; omega), List.drop_eq_nil_of_le (by simp; omega)]

theorem staged_begins (offer : Offer) : offer.staged <+: offeredBytes offer := by
  cases offer with
  | borrowed ranges limit =>
    by_cases hfits : min ranges.flatten.length limit ≤ isizeMax
    · rw [staged_borrowed hfits]
      exact List.take_prefix _ _
    · rw [Offer.staged, Offer.payload, if_neg hfits]
      exact List.nil_prefix
  | owned bytes => exact List.prefix_rfl

/-- What one call does to the connection, and what it tells the caller. -/
structure Honest (stream : StreamId) (c d : Conn) (call : Call) : Prop where
  accepted_le : call.accepted ≤ call.rest.length
  next : (d.retained.entry stream).nextOffset =
    offsetAfter (c.retained.entry stream).nextOffset call.accepted
  assigned : call.retained.map (fun chunk => (chunk.start, chunk.len)) =
    if call.accepted = 0 then [] else [((c.retained.entry stream).nextOffset, call.accepted)]
  holds : ∀ chunk ∈ call.retained, chunk.data.slice.take chunk.len = call.rest.take call.accepted
  unsent : ∀ unsent, call.unsent = some unsent → unsent.asSlice = call.rest.drop call.accepted
  whole : ∀ submission ∈ call.submitted, submission.flags = .fin →
    call.fin = true ∧ submission.data = call.rest
  ended : call.fin = true → ∀ len, call.outcome = .ok (.datagram len call.rest.length) →
    ∃ submission ∈ call.submitted, submission.flags = .fin ∧ submission.data = call.rest

theorem honest_refused (c : Conn) (rest : Bytes) (fin : Bool) (error : WriteError) :
    Honest stream c c ⟨rest, fin, .error error, none, c.submitted.drop c.submitted.length,
      (c.retained.entry stream).chunks.drop (c.retained.entry stream).chunks.length⟩ := by
  constructor <;> simp [Call.accepted, reported, offsetAfter]

theorem honest_submitted {c d : Conn} {offer : Offer} {staged : Option Bytes} {retained : Retained}
    {flags : WriteFlag} {fin : Bool} {ngtcp2 : Ngtcp2} {outcome : Except WriteError StreamWrite}
    (hstage : c.retained.stage stream offer = some (staged, retained))
    (hflags : flags = .fin ↔ fin = true ∧ offer.staged = offeredBytes offer)
    (hresult : { c with retained }.submitOneVec stream staged flags ngtcp2 = (outcome, d))
    {unsent : Option OwnedBytes}
    (hunsent : ∀ bytes, unsent = some bytes → bytes.asSlice = (offeredBytes offer).drop (reported outcome)) :
    Honest stream c d ⟨offeredBytes offer, fin, outcome, unsent, d.submitted.drop c.submitted.length,
      (d.retained.entry stream).chunks.drop (c.retained.entry stream).chunks.length⟩ := by
  have hspec := submitOneVec_spec (c := { c with retained }) flags ngtcp2 hstage
  rw [hresult] at hspec
  obtain ⟨hle, hentry, hsubmitted⟩ := hspec
  dsimp only at hle hentry hsubmitted
  obtain ⟨behind, hstart⟩ := staged_begins offer
  have hchunks : (d.retained.entry stream).chunks.drop (c.retained.entry stream).chunks.length =
      if reported outcome = 0 then []
      else [⟨offer.payload, (c.retained.entry stream).nextOffset, reported outcome⟩] := by
    rw [hentry, chunks_written]
  have hnew : d.submitted.drop c.submitted.length = [⟨stream, offer.staged, flags⟩] := by simp [hsubmitted]
  constructor
  · exact hle.trans (staged_begins offer).length_le
  · rw [hentry]
    exact nextOffset_written _ _ _
  · simp only [hchunks, Call.accepted]
    by_cases hzero : reported outcome = 0 <;> simp [hzero]
  · simp only [hchunks, Call.accepted]
    intro chunk hchunk
    split at hchunk
    · simp at hchunk
    · rw [List.mem_singleton.mp hchunk, ← hstart]
      exact (List.take_append_of_le_length hle).symm
  · exact hunsent
  · simp only [hnew, List.mem_singleton]
    rintro submission rfl hfin
    exact hflags.mp hfin
  · simp only [hnew, List.mem_singleton]
    intro hfin len houtcome
    -- everything was accepted, so everything was staged
    have hall : offer.staged = offeredBytes offer := by
      rw [houtcome] at hle
      exact (staged_begins offer).eq_of_length_le hle
    exact ⟨_, rfl, hflags.mpr ⟨hfin, hall⟩, hall⟩

theorem streamFlags_fin (fin complete : Bool) : streamFlags fin complete = .fin ↔ fin = true ∧ complete = true := by
  cases fin <;> cases complete <;> simp [streamFlags]

theorem honest_call {turn : Turn} {c d : Conn} {call : Call} (h : turn.call stream c = some (call, d)) :
    Honest stream c d call ∧ call.rest = offeredBytes turn.offer := by
  obtain ⟨offer, destLen, fin, ngtcp2⟩ := turn
  rw [Turn.call, Option.map_eq_some_iff] at h
  obtain ⟨⟨⟨outcome, unsent⟩, d'⟩, hwrite, hcall⟩ := h
  cases hcall
  refine ⟨?_, rfl⟩
  rw [Turn.write] at hwrite
  cases offer with
  | borrowed ranges limit =>
    simp only [Option.map_eq_some_iff] at hwrite
    obtain ⟨⟨outcome', d'⟩, hvectored, heq⟩ := hwrite
    cases heq
    rw [Conn.writeStreamVectored] at hvectored
    by_cases hroom : destLen = 0
    · rw [if_pos hroom] at hvectored
      cases hvectored
      exact honest_refused c _ _ _
    · rw [if_neg hroom, Option.map_eq_some_iff] at hvectored
      obtain ⟨⟨⟨staged, complete⟩, retained⟩, hstaged, hresult⟩ := hvectored
      have hstage : c.retained.stage stream (.borrowed ranges limit) = some (staged, retained) := by
        rw [Retained.stage, hstaged]
        rfl
      have hcomplete : complete = true ↔ (Offer.borrowed ranges limit).staged = ranges.flatten := by
        rcases stageManyBounded_cases c.retained stream ranges limit with ⟨h, -⟩ | ⟨hnil, h⟩ | ⟨-, h⟩
        · rw [h] at hstaged
          cases hstaged
        · rw [h] at hstaged
          cases hstaged
          rw [hnil, beq_iff_eq, eq_comm]
        · rw [h] at hstaged
          cases hstaged
          rw [beq_iff_eq]
      apply honest_submitted hstage _ hresult
      · simp
      · rw [streamFlags_fin, hcomplete]
        rfl
  | owned bytes =>
    simp only [Option.some.injEq, Prod.mk.injEq] at hwrite
    rw [Conn.writeStreamOwned] at hwrite
    by_cases hroom : destLen = 0
    · simp only [if_pos hroom] at hwrite
      obtain ⟨⟨rfl, rfl⟩, rfl⟩ := hwrite
      exact honest_refused c _ _ _
    · simp only [if_neg hroom] at hwrite
      have hstage : c.retained.stage stream (.owned bytes) = some (c.retained.stageOwned stream bytes) := rfl
      have hflags : (if fin then WriteFlag.fin else WriteFlag.none) = .fin ↔
          fin = true ∧ (Offer.owned bytes).staged = offeredBytes (.owned bytes) := by
        cases fin <;> simp [Offer.staged, Offer.payload, Payload.slice, offeredBytes]
      generalize hsub : Conn.submitOneVec _ _ _ _ _ = result at hwrite
      obtain ⟨result, e⟩ := result
      cases result with
      | error error =>
        obtain ⟨⟨rfl, rfl⟩, rfl⟩ := hwrite
        exact honest_submitted hstage hflags hsub (by simp [Except.toOption])
      | ok outcome =>
        obtain ⟨⟨rfl, rfl⟩, rfl⟩ := hwrite
        apply honest_submitted hstage hflags hsub
        intro rest hrest
        cases hrest
        exact splitTo_rest bytes _

end Calls

/-! ## Every sequence of re-offers -/

/-- The bytes that the calls accepted. -/
def acceptedPrefixes (calls : List Call) : Bytes := calls.flatMap fun call => call.rest.take call.accepted

section Reoffers
variable {stream : StreamId} {c d : Conn} {data left : Bytes} {calls : List Call}

theorem acceptedPrefixes_reoffers (h : Reoffers stream c data calls d left) :
    acceptedPrefixes calls ++ left = data := by
  induction h with
  | stop c rest => rfl
  | @turn c d e rest left turn call calls offers called more ih =>
    have hrest : call.rest = rest := (honest_call called).2.trans offers
    rw [acceptedPrefixes, List.flatMap_cons, List.append_assoc, hrest]
    rw [acceptedPrefixes] at ih
    rw [ih, List.take_append_drop]

theorem honest_reoffers (h : Reoffers stream c data calls d left) (before after : List Call) (call : Call)
    (hsplit : calls = before ++ call :: after) :
    let sent := (before.map Call.accepted).sum
    call.rest = data.drop sent ∧ ∃ c' d', Honest stream c' d' call ∧
      (c'.retained.entry stream).nextOffset = offsetAfter (c.retained.entry stream).nextOffset sent := by
  induction h generalizing before with
  | stop c rest => simp at hsplit
  | @turn c d e rest left turn first calls offers called more ih =>
    obtain ⟨hfirst, hrest⟩ := honest_call called
    cases before with
    | nil =>
      obtain ⟨rfl, -⟩ := List.cons.inj hsplit
      exact ⟨hrest.trans offers, c, d, hfirst, by simp [offsetAfter]⟩
    | cons head before =>
      obtain ⟨rfl, hbehind⟩ := List.cons.inj hsplit
      obtain ⟨hcall, c', d', hhonest, hnext⟩ := ih before hbehind
      rw [List.drop_drop] at hcall
      rw [hfirst.next, offsetAfter_add] at hnext
      exact ⟨hcall, c', d', hhonest, hnext⟩

end Reoffers

/-- Re-offering until nothing remains delivers the data exactly once. Each call assigns the offsets
behind those of the calls before it, on either path, and gives back what it did not accept; the
end-of-stream marker goes only with the whole rest, and a report of everything accepted on a final
call means that it did. -/
theorem reoffers_exact (stream : StreamId) (c d : Conn) (data : Bytes) (calls : List Call)
    (h : Reoffers stream c data calls d []) :
    acceptedPrefixes calls = data ∧
    ∀ before call after, calls = before ++ call :: after →
      let sent := (before.map Call.accepted).sum
      call.rest = data.drop sent ∧
      call.retained.map (fun chunk => (chunk.start, chunk.len)) =
        (if call.accepted = 0 then []
        else [(offsetAfter (c.retained.entry stream).nextOffset sent, call.accepted)]) ∧
      (∀ chunk ∈ call.retained, chunk.data.slice.take chunk.len = call.rest.take call.accepted) ∧
      (∀ unsent, call.unsent = some unsent → unsent.asSlice = call.rest.drop call.accepted) ∧
      (∀ submission ∈ call.submitted, submission.flags = .fin →
        call.fin = true ∧ submission.data = call.rest) ∧
      (call.fin = true → ∀ len, call.outcome = .ok (.datagram len call.rest.length) →
        ∃ submission ∈ call.submitted, submission.flags = .fin ∧ submission.data = call.rest) := by
  constructor
  · have hall := acceptedPrefixes_reoffers h
    rwa [List.append_nil] at hall
  · intro before call after hsplit
    obtain ⟨hrest, c', d', hhonest, hnext⟩ := honest_reoffers h before after call hsplit
    refine ⟨hrest, ?_, hhonest.holds, hhonest.unsent, hhonest.whole, hhonest.ended⟩
    rw [hhonest.assigned, hnext]

/-- ngtcp2 accepting everything it is pointed at. -/
def eager : Ngtcp2 where
  answer submission := .datagram 40 submission.data.length
  accepts_le := by
    rintro submission len accepted ⟨⟩
    exact le_rfl

/-- ngtcp2 filling its packet with other frames. -/
def busy : Ngtcp2 where
  answer _ := .datagram 40 (-1)
  accepts_le := by
    rintro submission len accepted ⟨⟩
    omega

/-- Three bytes on a fresh stream: a packet that holds two, one without the stream, and the last
byte over the owning path. -/
theorem reoffers_exact_three_calls :
    let turns : List Turn := [⟨.borrowed [[1], [2, 3]] 2, 40, true, eager⟩, ⟨.owned (.new [3]), 40, true, busy⟩,
      ⟨.owned (.new [3]), 40, true, eager⟩]
    ∃ calls d, Reoffers ⟨4, by decide⟩ {} [1, 2, 3] calls d [] ∧ calls.length = turns.length ∧
      acceptedPrefixes calls = [1, 2, 3] := by
  intro turns
  let stream : StreamId := ⟨4, by decide⟩
  obtain ⟨first, d₁, h₁, hfirst⟩ : ∃ call d, Turn.call ⟨.borrowed [[1], [2, 3]] 2, 40, true, eager⟩ stream {} =
      some (call, d) ∧ call.accepted = 2 := ⟨_, _, rfl, rfl⟩
  obtain ⟨second, d₂, h₂, hsecond⟩ : ∃ call d, Turn.call ⟨.owned (.new [3]), 40, true, busy⟩ stream d₁ =
      some (call, d) ∧ call.accepted = 0 := ⟨_, _, rfl, rfl⟩
  obtain ⟨third, d₃, h₃, hthird⟩ : ∃ call d, Turn.call ⟨.owned (.new [3]), 40, true, eager⟩ stream d₂ =
      some (call, d) ∧ call.accepted = 1 := ⟨_, _, rfl, rfl⟩
  have hrun : Reoffers stream {} [1, 2, 3] [first, second, third] d₃ [] := by
    apply Reoffers.turn rfl h₁
    rw [hfirst]
    apply Reoffers.turn rfl h₂
    rw [hsecond]
    apply Reoffers.turn rfl h₃
    rw [hthird]
    exact .stop _ _
  exact ⟨_, _, hrun, rfl, (reoffers_exact stream {} d₃ [1, 2, 3] _ hrun).1⟩

end Ngnet.QuicStreamWrites
