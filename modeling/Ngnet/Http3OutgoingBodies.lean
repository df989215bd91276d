import Mathlib.Data.List.Induction
import Mathlib.Data.List.Infix
import Ngnet.QmuxStreams

/-!
# Outgoing HTTP/3 bodies

The crate `ngnet-h3`: `BodyEntry` of `state.rs` and the callbacks of `callbacks.rs` by which
nghttp3 pulls a body and reports what was acknowledged of it. nghttp3 borrows the vectors that it
is handed until then, so each stays retained with the length nghttp3 was told.

A piece reads its bytes through a caller's `AsRef`, twice: when the source hands it in, and when
its address is written into nghttp3's array. The two answers are kept apart. A source is any
sequence of outcomes, one for each time it is consulted; the callbacks' lookup of the entry by
stream is left out.
-/

namespace Ngnet.Http3OutgoingBodies
open QmuxVarints

/-! ## State -/

/-- A piece of a body: what `is_empty` reads when the source hands it in, and what `as_slice` reads
when it is handed over. -/
structure RetainedBytes where
  queued : Bytes
  handed : Bytes
  deriving DecidableEq, Repr

inductive BodyOutcome
  | wrote (pieces : List RetainedBytes)
  | eof (pieces : List RetainedBytes)
  | eofWithTrailers (pieces : List RetainedBytes)
  | defer
  | fail
  deriving DecidableEq, Repr

inductive BodyEnd | stream | trailers
  deriving DecidableEq, Repr

/-- One outgoing body. `consulted` counts how often the source was asked. -/
structure BodyEntry where
  source : ℕ → BodyOutcome
  consulted : ℕ := 0
  pending : List RetainedBytes := []
  bodyEnd : Option BodyEnd := none
  retained : List (RetainedBytes × ℕ) := []
  carry : ℕ := 0

inductive Handover | defer | fail | ready
  deriving DecidableEq, Repr

namespace BodyEntry

def new (source : ℕ → BodyOutcome) : BodyEntry := { source }

def queuePieces (e : BodyEntry) (pieces : List RetainedBytes) (bodyEnd : Option BodyEnd) : BodyEntry :=
  { e with pending := e.pending ++ pieces.filter (fun piece => piece.queued ≠ []), bodyEnd }

def beginRound (e : BodyEntry) : Handover × BodyEntry :=
  if e.pending ≠ [] ∨ e.bodyEnd.isSome then (.ready, e)
  else
    let asked := { e with consulted := e.consulted + 1 }
    match e.source e.consulted with
    | .defer => (.defer, asked)
    | .fail => (.fail, asked)
    | .wrote pieces => (.ready, asked.queuePieces pieces none)
    | .eof pieces => (.ready, asked.queuePieces pieces (some .stream))
    | .eofWithTrailers pieces => (.ready, asked.queuePieces pieces (some .trailers))

def endReached (e : BodyEntry) : Option BodyEnd := if e.pending = [] then e.bodyEnd else none

/-- The loop over the front of the retained queue. -/
def release : List (RetainedBytes × ℕ) → ℕ → List (RetainedBytes × ℕ) × ℕ
  | [], carry => ([], carry)
  | front :: rest, carry => if carry < front.2 then (front :: rest, carry) else release rest (carry - front.2)

def onAcked (e : BodyEntry) (n : ℕ) : BodyEntry :=
  let (retained, carry) := release e.retained (min (e.carry + n) (2 ^ 64 - 1))
  { e with retained, carry }

end BodyEntry

/-! ## Callbacks -/

/-- `NGHTTP3_DATA_FLAG_EOF` and `NGHTTP3_DATA_FLAG_NO_END_STREAM`. -/
structure DataFlags where
  eof : Bool := false
  noEndStream : Bool := false
  deriving DecidableEq, Repr

/-- What the data callback answers nghttp3: an error code, or the vectors that it filled. -/
inductive DataResult
  | wouldBlock
  | callbackFailure
  | filled (vectors : List Bytes) (flags : DataFlags)
  deriving DecidableEq, Repr

/-- The loop that fills the vector array from the pending pieces. -/
def fillVectors (veccnt : ℕ) : List RetainedBytes → List Bytes → List (RetainedBytes × ℕ) →
    List Bytes × List RetainedBytes × List (RetainedBytes × ℕ)
  | [], vectors, retained => (vectors, [], retained)
  | piece :: pending, vectors, retained =>
    if vectors.length < veccnt then
      if piece.handed = [] then fillVectors veccnt pending vectors retained
      else fillVectors veccnt pending (vectors ++ [piece.handed]) (retained ++ [(piece, piece.handed.length)])
    else (vectors, piece :: pending, retained)

def dataFlags : Option BodyEnd → DataFlags
  | none => {}
  | some .stream => { eof := true }
  | some .trailers => { eof := true, noEndStream := true }

/-- `read_data_cb`. -/
def readData (e : BodyEntry) (veccnt : ℕ) : DataResult × BodyEntry :=
  match e.beginRound with
  | (.defer, e) => (.wouldBlock, e)
  | (.fail, e) => (.callbackFailure, e)
  | (.ready, e) =>
    let (vectors, pending, retained) := fillVectors veccnt e.pending [] e.retained
    let e := { e with pending, retained }
    if vectors.length = 0 ∧ e.endReached = none then (.wouldBlock, e)
    else (.filled vectors (dataFlags e.endReached), e)

/-! ## Runs -/

inductive Event
  | readData (veccnt : ℕ)
  | acked (datalen : ℕ)
  deriving DecidableEq, Repr

/-- A body in use: its entry, the vectors handed to nghttp3 and the bytes it acknowledged. -/
structure Body where
  entry : BodyEntry
  handed : List Bytes := []
  acked : ℕ := 0

def DataResult.vectors : DataResult → List Bytes
  | .filled vectors _ => vectors
  | _ => []

def DataResult.flags : DataResult → DataFlags
  | .filled _ flags => flags
  | _ => {}

def step (b : Body) : Event → Body
  | .readData veccnt =>
    let (result, entry) := readData b.entry veccnt
    { b with entry, handed := b.handed ++ result.vectors }
  | .acked datalen => { b with entry := b.entry.onAcked datalen, acked := b.acked + datalen }

def reached (source : ℕ → BodyOutcome) (events : List Event) : Body :=
  events.foldl step ⟨.new source, [], 0⟩

/-! ## What the source produced -/

def BodyOutcome.pieces : BodyOutcome → List RetainedBytes
  | .wrote pieces => pieces
  | .eof pieces => pieces
  | .eofWithTrailers pieces => pieces
  | _ => []

def BodyOutcome.bodyEnd : BodyOutcome → Option BodyEnd
  | .eof _ => some .stream
  | .eofWithTrailers _ => some .trailers
  | _ => none

/-- The pieces that are empty at neither reading. For an owner that answers the same twice they are
the non-empty ones. -/
def nonEmpty (pieces : List RetainedBytes) : List Bytes :=
  (pieces.filter fun piece => piece.queued ≠ [] ∧ piece.handed ≠ []).map RetainedBytes.handed

/-- The non-empty pieces of the first `n` outcomes of a source, in order. -/
def produced (source : ℕ → BodyOutcome) (n : ℕ) : List Bytes :=
  (List.range n).flatMap fun k => nonEmpty (source k).pieces

theorem nonEmpty_queued (pieces : List RetainedBytes) :
    nonEmpty (pieces.filter fun piece => piece.queued ≠ []) = nonEmpty pieces := by
  induction pieces with
  | nil => rfl
  | cons piece pieces ih =>
    rw [nonEmpty, nonEmpty] at ih ⊢
    by_cases hqueued : piece.queued = []
    · simpa [hqueued] using ih
    · by_cases hhanded : piece.handed = [] <;> simpa [hqueued, hhanded] using ih

theorem produced_succ (source : ℕ → BodyOutcome) (n : ℕ) :
    produced source (n + 1) = produced source n ++ nonEmpty (source n).pieces := by
  simp [produced, List.range_succ]

/-! ## One callback -/

theorem fillVectors_spec (veccnt : ℕ) (pending : List RetainedBytes) (vectors : List Bytes)
    (retained : List (RetainedBytes × ℕ)) (hqueued : ∀ piece ∈ pending, piece.queued ≠ []) :
    ∃ given left : List RetainedBytes, fillVectors veccnt pending vectors retained =
        (vectors ++ given.map RetainedBytes.handed, left,
          retained ++ given.map fun piece => (piece, piece.handed.length)) ∧
      nonEmpty pending = given.map RetainedBytes.handed ++ nonEmpty left ∧
      (∀ piece ∈ given, piece.handed ≠ []) ∧ ∀ piece ∈ left, piece.queued ≠ [] := by
  induction pending generalizing vectors retained with
  | nil => exact ⟨[], [], by simp [fillVectors], by simp [nonEmpty], by simp, by simp⟩
  | cons piece pending ih =>
    have hrest (other : RetainedBytes) (hother : other ∈ pending) : other.queued ≠ [] :=
      hqueued other (List.mem_cons_of_mem _ hother)
    rw [fillVectors]
    by_cases hroom : vectors.length < veccnt
    · rw [if_pos hroom]
      by_cases hempty : piece.handed = []
      · obtain ⟨given, left, hfill, hpending, hover, hleft⟩ := ih vectors retained hrest
        rw [if_pos hempty]
        refine ⟨given, left, hfill, ?_, hover, hleft⟩
        rw [← hpending]
        simp [nonEmpty, hempty]
      · obtain ⟨given, left, hfill, hpending, hover, hleft⟩ :=
          ih (vectors ++ [piece.handed]) (retained ++ [(piece, piece.handed.length)]) hrest
        rw [if_neg hempty]
        refine ⟨piece :: given, left, by simp [hfill], ?_, ?_, hleft⟩
        · have hpiece : nonEmpty (piece :: pending) = piece.handed :: nonEmpty pending := by
            simp [nonEmpty, hqueued piece, hempty]
          rw [hpiece, hpending]
          rfl
        · simpa [hempty] using hover
    · rw [if_neg hroom]
      exact ⟨[], piece :: pending, by simp, by simp, by simp, hqueued⟩

/-- What a body knows about its source: what was handed over and is pending is what the source
produced, and an end is recorded as soon as it was signalled. -/
structure Faithful (e : BodyEntry) (handed : List Bytes) : Prop where
  pieces : handed ++ nonEmpty e.pending = produced e.source e.consulted
  queued : ∀ piece ∈ e.pending, piece.queued ≠ []
  open_before : ∀ k < e.consulted - 1, (e.source k).bodyEnd = none
  ended : e.bodyEnd = if e.consulted = 0 then none else (e.source (e.consulted - 1)).bodyEnd

theorem beginRound_cases (e : BodyEntry) :
    ((e.pending ≠ [] ∨ e.bodyEnd.isSome = true) ∧ e.beginRound = (.ready, e)) ∨
    (e.pending = [] ∧ e.bodyEnd = none ∧ ∃ handover, e.beginRound = (handover,
      { e with consulted := e.consulted + 1, bodyEnd := (e.source e.consulted).bodyEnd,
               pending := (e.source e.consulted).pieces.filter fun piece => piece.queued ≠ [] }) ∧
      (handover ≠ .ready → (e.source e.consulted).pieces = [] ∧ (e.source e.consulted).bodyEnd = none)) := by
  rw [BodyEntry.beginRound]
  by_cases hbusy : e.pending ≠ [] ∨ e.bodyEnd.isSome = true
  · exact .inl ⟨hbusy, if_pos hbusy⟩
  · obtain ⟨hpending, hend⟩ := not_or.mp hbusy
    rw [not_not] at hpending
    rw [Bool.not_eq_true, Option.isSome_eq_false_iff, Option.isNone_iff_eq_none] at hend
    refine .inr ⟨hpending, hend, ?_⟩
    rw [if_neg hbusy]
    cases hsource : e.source e.consulted <;>
      simp [BodyOutcome.pieces, BodyOutcome.bodyEnd, BodyEntry.queuePieces, hpending, hend]

variable {e : BodyEntry} {handed : List Bytes}

theorem Faithful.beginRound (h : Faithful e handed) :
    Faithful e.beginRound.2 handed := by
  rcases beginRound_cases e with ⟨-, hround⟩ | ⟨hpending, hend, handover, hround, -⟩
  · rw [hround]
    exact h
  · rw [hround]
    have hpieces := h.pieces
    have hended := h.ended
    rw [hpending] at hpieces
    constructor
    · simp only [nonEmpty_queued, produced_succ, ← hpieces]
      simp [nonEmpty]
    · intro piece hpiece
      simpa using (List.mem_filter.mp hpiece).2
    · intro k hk
      change k < e.consulted + 1 - 1 at hk
      by_cases hlast : k = e.consulted - 1
      · rw [if_neg (by omega), hend] at hended
        rw [hlast]
        exact hended.symm
      · exact h.open_before k (by omega)
    · simp

/-- What one data callback does: it hands over pieces of the round it began, and flags the end
exactly when nothing is pending and the source has signalled it. -/
theorem readData_spec (h : Faithful e handed) (veccnt : ℕ) :
    let result := (readData e veccnt).1
    let e' := (readData e veccnt).2
    Faithful e' (handed ++ result.vectors) ∧
      (∃ given : List RetainedBytes, result.vectors = given.map RetainedBytes.handed ∧
        (∀ piece ∈ given, piece.handed ≠ []) ∧
        e'.retained = e.retained ++ given.map fun piece => (piece, piece.handed.length)) ∧
      e'.carry = e.carry ∧ result.flags = dataFlags e'.endReached ∧
      (result.vectors = [] → result.flags.eof = false → result = .wouldBlock ∨ result = .callbackFailure) ∧
      e'.consulted = e.beginRound.2.consulted := by
  intro result e'
  have hround := h.beginRound
  have hkept : e.beginRound.2.retained = e.retained ∧ e.beginRound.2.carry = e.carry := by
    rcases beginRound_cases e with ⟨-, hround⟩ | ⟨-, -, handover, hround, -⟩ <;> rw [hround] <;> exact ⟨rfl, rfl⟩
  -- a round that is deferred or failed has neither pieces nor an end
  have hidle (hnot : e.beginRound.1 ≠ .ready) : dataFlags e.beginRound.2.endReached = {} := by
    rcases beginRound_cases e with ⟨-, hround⟩ | ⟨-, -, handover, hround, hnothing⟩
    · rw [hround] at hnot
      exact absurd rfl hnot
    · rw [hround] at hnot ⊢
      simp [BodyEntry.endReached, hnothing hnot, dataFlags]
  obtain ⟨hretained, hcarry⟩ := hkept
  generalize hbegun : e.beginRound = begun at hround hretained hcarry hidle ⊢
  obtain ⟨handover, f⟩ := begun
  have hread : readData e veccnt = match (handover, f) with
      | (.defer, e) => (.wouldBlock, e)
      | (.fail, e) => (.callbackFailure, e)
      | (.ready, e) =>
        let (vectors, pending, retained) := fillVectors veccnt e.pending [] e.retained
        let e := { e with pending, retained }
        if vectors.length = 0 ∧ e.endReached = none then (.wouldBlock, e)
        else (.filled vectors (dataFlags e.endReached), e) := by
    rw [readData, hbegun]
  dsimp only at hround hretained hcarry hidle
  cases handover with
  | defer =>
    simp only [result, e', hread]
    refine ⟨by simpa [DataResult.vectors] using hround, ⟨[], rfl, by simp, by simp [hretained]⟩, hcarry, ?_, ?_, ?_⟩
    · exact (hidle nofun).symm
    · simp
    · trivial
  | fail =>
    simp only [result, e', hread]
    refine ⟨by simpa [DataResult.vectors] using hround, ⟨[], rfl, by simp, by simp [hretained]⟩, hcarry, ?_, ?_, ?_⟩
    · exact (hidle nofun).symm
    · simp
    · trivial
  | ready =>
    obtain ⟨given, left, hfill, hpending, hover, hleft⟩ := fillVectors_spec veccnt f.pending [] f.retained hround.queued
    rw [List.nil_append] at hfill
    have hfaithful : Faithful { f with pending := left, retained := f.retained ++ given.map fun piece => (piece, piece.handed.length) }
        (handed ++ given.map RetainedBytes.handed) := by
      refine ⟨?_, hleft, hround.open_before, hround.ended⟩
      rw [List.append_assoc, ← hpending]
      exact hround.pieces
    simp only [result, e', hread, hfill]
    split
    · rename_i hnothing
      obtain ⟨hempty, hend⟩ := hnothing
      have hover' : given = [] := by simpa using hempty
      refine ⟨by simpa [DataResult.vectors, hover'] using hfaithful, ⟨[], rfl, by simp, by simp [hretained, hover']⟩,
        hcarry, ?_, fun _ _ => .inl rfl, rfl⟩
      rw [hend]
      rfl
    · rename_i hsomething
      refine ⟨hfaithful, ⟨given, rfl, hover, by rw [hretained]⟩, hcarry, rfl, ?_, rfl⟩
      intro hempty heof
      simp only [DataResult.vectors] at hempty
      simp only [DataResult.flags] at heof
      refine absurd ⟨by simp [hempty], ?_⟩ hsomething
      cases hend : BodyEntry.endReached _ with
      | none => rfl
      | some kind =>
        rw [hend] at heof
        cases kind <;> simp [dataFlags] at heof

/-! ## Acknowledgements -/

theorem release_spec (retained : List (RetainedBytes × ℕ)) (carry : ℕ) :
    ∃ n ≤ retained.length, (BodyEntry.release retained carry).1 = retained.drop n ∧
      ((retained.take n).map Prod.snd).sum + (BodyEntry.release retained carry).2 = carry ∧
      ∀ front rest, retained.drop n = front :: rest → (BodyEntry.release retained carry).2 < front.2 := by
  induction retained generalizing carry with
  | nil => exact ⟨0, by simp, by simp [BodyEntry.release], by simp [BodyEntry.release], by simp⟩
  | cons front rest ih =>
    rw [BodyEntry.release]
    by_cases hcovered : carry < front.2
    · rw [if_pos hcovered]
      refine ⟨0, by simp, rfl, by simp, ?_⟩
      rintro _ _ ⟨⟩
      exact hcovered
    · obtain ⟨n, hn, hdrop, hsum, huncovered⟩ := ih (carry - front.2)
      rw [if_neg hcovered]
      refine ⟨n + 1, by simpa using hn, by simpa using hdrop, ?_, by simpa using huncovered⟩
      rw [List.take_succ_cons, List.map_cons, List.sum_cons]
      omega

/-- The released vectors and the carry are what was acknowledged, and the carry does not cover the
first vector that is still retained. -/
structure Accounted (e : BodyEntry) (handed : List Bytes) (acked released : ℕ) : Prop where
  retained : e.retained.map (fun held => held.1.handed) = handed.drop released
  lengths : ∀ held ∈ e.retained, held.2 = held.1.handed.length ∧ held.1.handed ≠ []
  released_le : released ≤ handed.length
  carried : (handed.take released).flatten.length + e.carry = acked
  uncovered : ∀ front rest, e.retained = front :: rest → e.carry < front.2

theorem lengths_sum {held : List (RetainedBytes × ℕ)}
    (h : ∀ p ∈ held, p.2 = p.1.handed.length ∧ p.1.handed ≠ []) :
    (held.map Prod.snd).sum = (held.map fun p => p.1.handed).flatten.length := by
  induction held with
  | nil => rfl
  | cons front rest ih =>
    have hrest := ih fun p hp => h p (List.mem_cons_of_mem _ hp)
    rw [List.map_cons, List.sum_cons, hrest, (h front (by simp)).1]
    simp

variable {acked released : ℕ}

theorem Accounted.onAcked {n : ℕ}
    (h : Accounted e handed acked released) (hsum : acked + n < 2 ^ 64) :
    ∃ released', Accounted (e.onAcked n) handed (acked + n) released' := by
  have hcarried := h.carried
  have hsaturate : min (e.carry + n) (2 ^ 64 - 1) = e.carry + n := by omega
  obtain ⟨m, hm, hdrop, htotal, huncovered⟩ := release_spec e.retained (e.carry + n)
  have hentry : (e.onAcked n).retained = e.retained.drop m ∧
      (e.onAcked n).carry = (BodyEntry.release e.retained (e.carry + n)).2 := by
    rw [BodyEntry.onAcked, hsaturate]
    exact ⟨hdrop, rfl⟩
  have hlength : e.retained.length = handed.length - released := by
    have hmapped := congrArg List.length h.retained
    simpa using hmapped
  refine ⟨released + m, ?_, ?_, ?_, ?_, ?_⟩
  · rw [hentry.1, List.map_drop, h.retained, List.drop_drop]
  · intro held hheld
    rw [hentry.1] at hheld
    exact h.lengths held (List.mem_of_mem_drop hheld)
  · have hreleased := h.released_le
    omega
  · -- the vectors released now are the first `m` retained ones
    have hnow : ((e.retained.take m).map Prod.snd).sum = ((handed.drop released).take m).flatten.length := by
      rw [lengths_sum fun p hp => h.lengths p (List.mem_of_mem_take hp), List.map_take, h.retained]
    rw [hentry.2, List.take_add, List.flatten_append, List.length_append]
    omega
  · rw [hentry.1, hentry.2]
    exact huncovered

theorem Accounted.readData
    (h : Accounted e handed acked released) (hlawful : acked ≤ handed.flatten.length) {e' : BodyEntry}
    {given : List RetainedBytes} (hover : ∀ piece ∈ given, piece.handed ≠ [])
    (hretained : e'.retained = e.retained ++ given.map fun piece => (piece, piece.handed.length))
    (hcarry : e'.carry = e.carry) :
    Accounted e' (handed ++ given.map RetainedBytes.handed) acked released := by
  have hreleased := h.released_le
  have hcarried := h.carried
  have hadded : (given.map fun piece => (piece, piece.handed.length)).map (fun held => held.1.handed) =
      given.map RetainedBytes.handed := by
    rw [List.map_map]
    rfl
  refine ⟨?_, ?_, ?_, ?_, ?_⟩
  · rw [hretained, List.map_append, h.retained, List.drop_append_of_le_length hreleased, hadded]
  · intro held hheld
    rw [hretained, List.mem_append, List.mem_map] at hheld
    rcases hheld with hold | ⟨piece, hpiece, rfl⟩
    · exact h.lengths held hold
    · exact ⟨rfl, hover piece hpiece⟩
  · simp
    omega
  · rw [List.take_append_of_le_length hreleased, hcarry, hcarried]
  · intro front rest hfront
    rw [hcarry]
    rw [hretained] at hfront
    cases hold : e.retained with
    | cons first more =>
      rw [hold, List.cons_append] at hfront
      cases hfront
      exact h.uncovered _ _ hold
    | nil =>
      -- everything handed over was released, so nothing is carried
      have hall : handed.drop released = [] := by
        rw [← h.retained, hold]
        rfl
      have hfull : handed.take released = handed := List.take_of_length_le (List.drop_eq_nil_iff.mp hall)
      rw [hfull] at hcarried
      have hpiece : front ∈ given.map fun piece => (piece, piece.handed.length) := by
        rw [hold, List.nil_append] at hfront
        rw [hfront]
        exact List.mem_cons_self
      obtain ⟨piece, hmem, rfl⟩ := List.mem_map.mp hpiece
      have hpos := List.length_pos_iff.mpr (hover piece hmem)
      change e.carry < piece.handed.length
      omega

theorem Accounted.retained_iff
    (h : Accounted e handed acked released) {k : ℕ} (hk : k < handed.length) :
    released ≤ k ↔ acked < (handed.take (k + 1)).flatten.length := by
  have hcarried := h.carried
  have hmono (m n : ℕ) (hmn : m ≤ n) : (handed.take m).flatten.length ≤ (handed.take n).flatten.length := by
    rw [← Nat.add_sub_cancel' hmn, List.take_add, List.flatten_append, List.length_append]
    exact Nat.le_add_right _ _
  constructor
  · intro hle
    have hlt : released < handed.length := by omega
    have hheld : e.retained.map (fun held => held.1.handed) = handed[released] :: handed.drop (released + 1) := by
      rw [h.retained, List.drop_eq_getElem_cons hlt]
    obtain ⟨front, rest, hfront, hvector, -⟩ := List.map_eq_cons_iff.mp hheld
    have huncovered := h.uncovered front rest hfront
    have hlength := (h.lengths front (by rw [hfront]; exact List.mem_cons_self)).1
    have hnext : (handed.take (released + 1)).flatten.length =
        (handed.take released).flatten.length + front.2 := by
      rw [List.take_add_one, List.getElem?_eq_getElem hlt, List.flatten_append, List.length_append, hlength, hvector]
      simp
    have hupto := hmono (released + 1) (k + 1) (by omega)
    omega
  · intro hlt
    by_contra hgone
    have hupto := hmono (k + 1) released (by omega)
    omega

/-! ## Every run -/

/-- nghttp3 acknowledges no more than it was handed, and counts in 64 bits. -/
def Lawful (source : ℕ → BodyOutcome) (events : List Event) : Prop :=
  ∀ before, before <+: events →
    (reached source before).acked ≤ (reached source before).handed.flatten.length ∧
    (reached source before).acked < 2 ^ 64

theorem Lawful.past {source : ℕ → BodyOutcome} {events more : List Event} (h : Lawful source (events ++ more)) :
    Lawful source events :=
  fun before hbefore => h before (hbefore.trans (List.prefix_append _ _))

theorem reached_concat (source : ℕ → BodyOutcome) (events : List Event) (event : Event) :
    reached source (events ++ [event]) = step (reached source events) event := by
  rw [reached, List.foldl_append]
  rfl

theorem readData_source (e : BodyEntry) (veccnt : ℕ) : (readData e veccnt).2.source = e.source := by
  rw [readData]
  rcases beginRound_cases e with ⟨-, hround⟩ | ⟨-, -, handover, hround, -⟩
  · rw [hround]
    dsimp only
    split <;> rfl
  · rw [hround]
    cases handover with
    | defer => rfl
    | fail => rfl
    | ready =>
      dsimp only
      split <;> rfl

theorem source_reached (source : ℕ → BodyOutcome) (events : List Event) :
    (reached source events).entry.source = source := by
  induction events using List.reverseRecOn with
  | nil => rfl
  | append_singleton events event ih =>
    rw [reached_concat]
    cases event with
    | readData veccnt => exact (readData_source _ veccnt).trans ih
    | acked datalen => exact ih

theorem faithful_reached (source : ℕ → BodyOutcome) (events : List Event) :
    Faithful (reached source events).entry (reached source events).handed := by
  induction events using List.reverseRecOn with
  | nil => exact ⟨rfl, by simp [reached, BodyEntry.new], by simp [reached, BodyEntry.new], rfl⟩
  | append_singleton events event ih =>
    rw [reached_concat]
    cases event with
    | readData veccnt => exact (readData_spec ih veccnt).1
    | acked datalen => exact ⟨ih.pieces, ih.queued, ih.open_before, ih.ended⟩

theorem accounted_reached {source : ℕ → BodyOutcome} {events : List Event} (h : Lawful source events) :
    ∃ released, Accounted (reached source events).entry (reached source events).handed
      (reached source events).acked released := by
  induction events using List.reverseRecOn with
  | nil =>
    refine ⟨0, ?_⟩
    constructor <;> simp [reached, BodyEntry.new]
  | append_singleton events event ih =>
    obtain ⟨released, haccounted⟩ := ih h.past
    have hlawful := h (events ++ [event]) List.prefix_rfl
    rw [reached_concat] at hlawful ⊢
    cases event with
    | readData veccnt =>
      obtain ⟨-, ⟨given, hvectors, hover, hretained⟩, hcarry, -⟩ := readData_spec (faithful_reached source events) veccnt
      refine ⟨released, ?_⟩
      show Accounted _ ((reached source events).handed ++ (readData (reached source events).entry veccnt).1.vectors) _ _
      rw [hvectors]
      exact haccounted.readData (h events (List.prefix_append _ _)).1 hover hretained hcarry
    | acked datalen => exact haccounted.onAcked hlawful.2

/-- A source of three pieces, one of them empty, and the end. -/
def threePieces : ℕ → BodyOutcome
  | 0 => .wrote [⟨[1, 2], [1, 2]⟩, ⟨[], []⟩, ⟨[3], [3]⟩]
  | _ => .eof []

end Ngnet.Http3OutgoingBodies
