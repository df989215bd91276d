import Ngnet.MeasuredLoops
import Ngnet.QmuxVectoredWrites

/-!
# The write loops end

`pack_vectored` and `try_write_stream_vectored` of `io/conn.rs` go on while the native writer
takes something of the offer. Their turns are split off here, with the assertion of
`Fragments::advance` as an outcome of its own, and each loop is shown to be the loop of its
turn: a turn goes on only with less of the offer left, so the loops end after a number of
native calls that the offer bounds, and the assertion is never reached.
-/

namespace Ngnet.QmuxWriteLoops
open QmuxVarints QmuxErrors QmuxStreams StatefulPrograms QmuxRecordWriter QmuxConnection
  QmuxConnection.Fragments QmuxVectoredWrites MeasuredLoops

/-! ## The cursor -/

/-- The cursor lies within the fragment it stands at. -/
def Placed (f : Fragments) : Prop := ∀ slice ∈ f.slices[f.index]?, f.offset ≤ slice.length

/-- Whether the loop of `advance` runs out of fragments with bytes left to skip, which it
asserts against, or subtracts an offset from a fragment that is shorter. -/
def leavesOver : List Bytes → Fragments → ℕ → Bool
  | [], _, bytes => decide (bytes ≠ 0)
  | slice :: rest, f, bytes =>
    if bytes = 0 then false
    else if slice.length < f.offset then true
    else
      let left := slice.length - f.offset
      if bytes < left then false
      else leavesOver rest { f with index := f.index + 1, offset := 0 } (bytes - left)

def leaves (f : Fragments) (bytes : ℕ) : Bool := leavesOver (f.slices.drop f.index) f bytes

variable (slices : List Bytes)

theorem placed_new : Placed (.new slices) := by
  intro slice _
  exact Nat.zero_le _

theorem placed_next (f : Fragments) : Placed { f with index := f.index + 1, offset := 0 } := by
  intro slice _
  exact Nat.zero_le _

variable {f : Fragments} {slice : Bytes} {more : List Bytes}

theorem getElem?_of_drop (h : f.slices.drop f.index = slice :: more) : f.slices[f.index]? = some slice := by
  have := congrArg (·[0]?) h
  simpa using this

theorem rest_next (h : f.slices.drop f.index = slice :: more) :
    rest { f with index := f.index + 1, offset := 0 } = more.flatten := by
  have hmore : f.slices.drop (f.index + 1) = more := by
    rw [← List.drop_drop, h, List.drop_succ_cons, List.drop_zero]
  cases hm : more with
  | nil => exact rest_of_drop_nil (f := ⟨f.slices, f.index + 1, 0⟩) (hmore.trans hm)
  | cons s m =>
    rw [rest_of_drop_cons (f := ⟨f.slices, f.index + 1, 0⟩) (hmore.trans hm)]
    simp

theorem drop_next (h : f.slices.drop f.index = slice :: more) : f.slices.drop (f.index + 1) = more := by
  rw [← List.drop_drop, h, List.drop_succ_cons, List.drop_zero]

variable {bytes : ℕ}

theorem placed_advanceOver (h : f.slices.drop f.index = slices) (hf : Placed f) :
    Placed (advanceOver slices f bytes) := by
  induction slices generalizing f bytes with
  | nil => exact hf
  | cons slice more ih =>
    rw [advanceOver]
    split
    · exact hf
    dsimp only
    split
    · rename_i hshort
      intro s hs
      rw [getElem?_of_drop h] at hs
      obtain rfl : slice = s := by simpa using hs
      dsimp only
      omega
    · exact ih (drop_next h) (placed_next f)

theorem Placed.advance (h : Placed f) (bytes : ℕ) : Placed (f.advance bytes) :=
  placed_advanceOver _ rfl h

theorem leavesOver_of_le
    (h : f.slices.drop f.index = slices) (hf : Placed f) (hle : bytes ≤ (rest f).length) :
    leavesOver slices f bytes = false := by
  induction slices generalizing f bytes with
  | nil =>
    rw [rest_of_drop_nil h] at hle
    simpa [leavesOver] using hle
  | cons slice more ih =>
    have hoffset : f.offset ≤ slice.length := hf slice (by rw [getElem?_of_drop h]; rfl)
    rw [leavesOver]
    split
    · rfl
    rw [if_neg (by omega)]
    dsimp only
    split
    · rfl
    · refine ih (drop_next h) (placed_next f) ?_
      rw [rest_of_drop_cons h, List.length_append, List.length_drop] at hle
      rw [rest_next h]
      omega

theorem Placed.leaves (h : Placed f) (hle : bytes ≤ f.remaining) :
    leaves f bytes = false :=
  leavesOver_of_le _ rfl h (by rwa [← remaining_eq])

/-! ## A turn of `pack_vectored` -/

section Pack
variable {ν : Type} [Dwnx ν]

/-- What a record came to: the bytes consumed, the verdict and the cursor. -/
abbrev Packed := ℕ × Verdict × Fragments

/-- The cursor moved past what a push took, with the assertion of `advance` as no cursor at
all. -/
def advanced (fragments : Fragments) (taken : ℕ) : Option Fragments :=
  if leaves fragments taken then none else some (fragments.advance taken)

/-- One turn of the loop of `pack_vectored`. It ends the loop without a value when the
assertion of `advance` fails. -/
def packTurn (stream : Option StreamId) (fin : Bool) :
    Fragments × ℕ → WriterM ν (Turn (Fragments × ℕ) (Option Packed))
  | (fragments, consumed) => do
    let (vectors, whole) := fragments.chunk
    match ← attempt (RecordWriter.pushVectored ⟨stream, vectors, fin && whole⟩) with
    | .error kind =>
      if consumed = 0 ∧ kind = .stream then pure (.done (some (consumed, .closed, fragments)))
      else fail kind
    | .ok (.accepted taken) =>
      let taken := taken.getD 0
      match advanced fragments taken with
      | none => pure (.done none)
      | some fragments =>
        if fragments.isEmpty then pure (.done (some (consumed + taken, .packed, fragments)))
        else if taken = 0 then pure (.done (some (consumed + taken, .blocked, fragments)))
        else pure (.more (fragments, consumed + taken))
    | .ok (.complete taken) =>
      let taken := taken.getD 0
      match advanced fragments taken with
      | none => pure (.done none)
      | some fragments => pure (.done (some (consumed + taken, .packed, fragments)))
    | .ok .streamBlocked => pure (.done (some (consumed, .blocked, fragments)))
    | .ok .streamClosed => pure (.done (some (consumed, .closed, fragments)))

/-- The loop of `pack_vectored`: what is left of the offer falls, each push is a native call,
and what was not taken is handed back. -/
def packMeasured (stream : Option StreamId) (fin : Bool) :
    Measured CoreErrorKind (RecordWriter ν) (Fragments × ℕ) (Option Packed) where
  turn := packTurn stream fin
  I i := Placed i.1
  Q i result := ∃ r, result = some r ∧ Placed r.2.2 ∧
    r.1 + r.2.2.remaining = i.2 + i.1.remaining
  measure i := i.1.remaining
  cost w := w.conn.calls.length
  allowance i := i.1.remaining + 1
  left result := (result.map fun r => r.2.2.remaining).getD 0

theorem remaining_advance (f : Fragments) (bytes : ℕ) :
    (f.advance bytes).remaining = f.remaining - bytes := by
  rw [remaining_eq, rest_advance, List.length_drop, ← remaining_eq]

variable {f : Fragments}

theorem packed_value {stream : Option StreamId} {fin : Bool} {f' : Fragments}
    {consumed taken : ℕ} {w w' : RecordWriter ν} (verdict : Verdict) (hf : Placed f')
    (hsum : taken + f'.remaining = f.remaining)
    (hcalls : w'.conn.calls.length ≤ w.conn.calls.length + 1) :
    let l := packMeasured (ν := ν) stream fin
    l.Q (f, consumed) (some (consumed + taken, verdict, f')) ∧
      l.cost w' + l.left (some (consumed + taken, verdict, f')) ≤
        l.cost w + l.allowance (f, consumed) := by
  refine ⟨⟨_, rfl, hf, by dsimp only; omega⟩, ?_⟩
  show w'.conn.calls.length + f'.remaining ≤ w.conn.calls.length + (f.remaining + 1)
  omega

variable [LawfulDwnx ν]

variable (stream : Option StreamId) (fin : Bool)

theorem push_ensures (f : Fragments) (w : RecordWriter ν) :
    Ensures (RecordWriter.pushVectored ⟨stream, f.chunk.1, fin && f.chunk.2⟩) w
      (fun push w' => w'.conn.calls.length ≤ w.conn.calls.length + 1 ∧
        (pushTaken push).getD 0 ≤ f.remaining)
      fun e w' => (∃ kind, e = .failed kind) ∧ w'.conn.calls.length ≤ w.conn.calls.length + 1 := by
  refine (pushVectored_ensures _ w).mono ?_ ?_
  · rintro push w' (⟨rfl, rfl⟩ | ⟨answer, hcalls, htaken, hle⟩)
    · exact ⟨Nat.le_succ _, Nat.zero_le _⟩
    · refine ⟨by rw [hcalls]; simp, ?_⟩
      rw [← htaken, remaining_eq]
      exact le_trans hle (submission_chunk stream fin f w.room).1.length_le
  · rintro e w' ⟨hkind, answer, hcalls, -⟩
    exact ⟨hkind, by rw [hcalls]; simp⟩

theorem packTurn_descends :
    (packMeasured (ν := ν) stream fin).Descends := by
  rintro ⟨f, consumed⟩ w hf
  show Ensures (packTurn stream fin (f, consumed)) w _ _
  rw [packTurn]
  refine ensures_bind.mpr (ensures_attempt.mpr ((push_ensures stream fin f w).mono ?_ ?_))
  · rintro push w' ⟨hcalls, htaken⟩
    cases push with
    | accepted taken =>
      simp only [pushTaken] at htaken
      have hrem := remaining_advance f (taken.getD 0)
      have hplaced := Placed.advance hf (taken.getD 0)
      simp only [advanced, Placed.leaves hf htaken, Bool.false_eq_true, if_false]
      have hsum : taken.getD 0 + (f.advance (taken.getD 0)).remaining = f.remaining := by omega
      split
      · exact ensures_pure.mpr (packed_value .packed hplaced hsum hcalls)
      split
      · exact ensures_pure.mpr (packed_value .blocked hplaced hsum hcalls)
      · rename_i hleft hsome
        -- the turn goes on, with less of the offer left
        refine ensures_pure.mpr ⟨hplaced, ?_, ?_, ?_⟩
        · show (f.advance (taken.getD 0)).remaining < f.remaining
          omega
        · rintro result ⟨r, rfl, hr, hcount⟩
          exact ⟨r, rfl, hr, by dsimp only at hcount ⊢; omega⟩
        · show w'.conn.calls.length + ((f.advance (taken.getD 0)).remaining + 1) ≤
            w.conn.calls.length + (f.remaining + 1)
          omega
    | complete taken =>
      simp only [pushTaken] at htaken
      have hrem := remaining_advance f (taken.getD 0)
      simp only [advanced, Placed.leaves hf htaken, Bool.false_eq_true, if_false]
      exact ensures_pure.mpr (packed_value .packed (Placed.advance hf _) (by omega) hcalls)
    | streamBlocked =>
      exact ensures_pure.mpr (packed_value (f := f) .blocked hf (Nat.zero_add _) hcalls)
    | streamClosed =>
      exact ensures_pure.mpr (packed_value (f := f) .closed hf (Nat.zero_add _) hcalls)
  · rintro e w' ⟨⟨kind, rfl⟩, hcalls⟩
    dsimp only
    split
    · exact ensures_pure.mpr (packed_value (f := f) .closed hf (Nat.zero_add _) hcalls)
    · refine ensures_fail.mpr ⟨⟨kind, rfl⟩, ?_⟩
      show w'.conn.calls.length ≤ w.conn.calls.length + (f.remaining + 1)
      omega

theorem packLoop_turns (fuel : ℕ)
    (hf : Placed f) (consumed : ℕ) (w : RecordWriter ν) :
    loop (packTurn stream fin) fuel (f, consumed) w =
      (packLoop stream fin fuel f consumed >>= fun r => pure (some r)) w := by
  induction fuel generalizing f consumed w with
  | zero => rfl
  | succ fuel ih =>
    have hpush := push_ensures stream fin f w
    rw [loop, packLoop, packTurn]
    simp only [bind_assoc]
    rw [bind_apply, bind_apply, attempt]
    obtain ⟨push, w', hrun, hcalls, htaken⟩ | ⟨e, w', hrun, ⟨kind, rfl⟩, -⟩ := hpush.cases
    · rw [hrun]
      cases push with
      | accepted taken =>
        simp only [pushTaken] at htaken
        simp only [advanced, Placed.leaves hf htaken, Bool.false_eq_true, if_false]
        split
        · simp only [pure_bind]
        split
        · simp only [pure_bind]
        · simp only [pure_bind]
          exact ih (Placed.advance hf _) _ _
      | complete taken =>
        simp only [pushTaken] at htaken
        simp only [advanced, Placed.leaves hf htaken, Bool.false_eq_true, if_false, pure_bind]
      | streamBlocked => simp only [pure_bind]
      | streamClosed => simp only [pure_bind]
    · rw [hrun]
      dsimp only
      split
      · simp only [pure_bind]
      · rfl

theorem packLoop_ends (hf : Placed f)
    (w : RecordWriter ν) :
    Ensures (packLoop stream fin (f.remaining + 1) f 0) w
      (fun r w' => Placed r.2.2 ∧ r.1 + r.2.2.remaining = f.remaining ∧
        w'.conn.calls.length + r.2.2.remaining ≤ w.conn.calls.length + (f.remaining + 1))
      fun e w' => (∃ kind, e = .failed kind) ∧
        w'.conn.calls.length ≤ w.conn.calls.length + (f.remaining + 1) := by
  have hloop := (packTurn_descends stream fin).ensures (i := (f, 0)) (s := w) hf
    (Nat.lt_succ_self f.remaining)
  unfold Ensures at hloop
  rw [show (packMeasured stream fin).turn = packTurn (ν := ν) stream fin from rfl,
    packLoop_turns stream fin (f.remaining + 1) hf 0 w] at hloop
  cases hrun : packLoop stream fin (f.remaining + 1) f 0 w with
  | ok r w' =>
    rw [bind_ok hrun] at hloop
    obtain ⟨⟨r', hr, hplaced, hcount⟩, hcalls⟩ := hloop
    obtain rfl : r = r' := by simpa using hr
    exact (ensures_of_ok hrun).mpr ⟨hplaced, by simpa using hcount, hcalls⟩
  | error e w' =>
    rw [bind_error hrun] at hloop
    exact (ensures_of_error hrun).mpr hloop

theorem finish_calls (w : RecordWriter ν) :
    Ensures RecordWriter.finish w (fun _ w' => w'.conn.calls.length ≤ w.conn.calls.length + 1)
      fun e w' => (∃ kind, e = .failed kind) ∧ w'.conn.calls.length ≤ w.conn.calls.length + 1 := by
  rw [RecordWriter.finish]
  refine ensures_get.mpr ?_
  split
  · exact ensures_pure.mpr (Nat.le_succ _)
  split
  · refine ensures_bind.mpr ((pushVectored_ensures controlOnly w).mono ?_ ?_)
    · rintro push w' hpush
      refine ensures_get.mpr (ensures_pure.mpr ?_)
      rcases hpush with ⟨-, rfl⟩ | ⟨answer, hcalls, -⟩
      · exact Nat.le_succ _
      · rw [hcalls]
        simp
    · rintro e w' ⟨hkind, answer, hcalls, -⟩
      refine ⟨hkind, ?_⟩
      rw [hcalls]
      simp
  · exact ensures_get.mpr (ensures_pure.mpr (Nat.le_succ _))

theorem drop_calls (w : RecordWriter ν) : w.drop.calls.length ≤ w.conn.calls.length + 1 := by
  rw [RecordWriter.drop]
  split
  · obtain ⟨answer, conn, hcall, hcalls, -⟩ := writev_calls ⟨w.room, false, none, []⟩ w.conn
    rw [hcall, hcalls]
    simp
  · exact Nat.le_succ _

/-- `pack_vectored` returns. Beside a native call for each turn of its loop it makes one to
finish the record and one to drop it. -/
theorem packVectored_ends (hf : Placed f) (fin : Bool)
    (room : ℕ) (conn : Conn ν) :
    Ensures (packVectored stream f fin room) conn
      (fun r conn' => Placed r.2 ∧ r.1.consumed + r.2.remaining = f.remaining ∧
        conn'.calls.length + r.2.remaining ≤ conn.calls.length + (f.remaining + 3))
      fun e conn' => (∃ kind, e = .failed kind) ∧
        conn'.calls.length ≤ conn.calls.length + (f.remaining + 3) := by
  have hbuild : Ensures (packing stream f fin)
      (RecordWriter.new conn room)
      (fun r w => Placed r.2 ∧ r.1.consumed + r.2.remaining = f.remaining ∧
        w.conn.calls.length + r.2.remaining ≤ conn.calls.length + (f.remaining + 2))
      fun e w => (∃ kind, e = .failed kind) ∧
        w.conn.calls.length ≤ conn.calls.length + (f.remaining + 2) := by
    rw [packing]
    refine ensures_bind.mpr ((packLoop_ends stream fin hf (RecordWriter.new conn room)).mono ?_ ?_)
    · rintro ⟨consumed, verdict, f'⟩ w ⟨hplaced, hcount, hcalls⟩
      dsimp only at hplaced hcount hcalls
      have hnew : (RecordWriter.new conn room).conn.calls.length = conn.calls.length := rfl
      refine ensures_bind.mpr ((finish_calls w).mono ?_ ?_)
      · intro bytes w' hfinish
        exact ensures_pure.mpr ⟨hplaced, hcount, by dsimp only; omega⟩
      · rintro e w' ⟨hkind, hfinish⟩
        exact ⟨hkind, by omega⟩
    · rintro e w ⟨hkind, hcalls⟩
      have hnew : (RecordWriter.new conn room).conn.calls.length = conn.calls.length := rfl
      exact ⟨hkind, by omega⟩
  rw [packVectored_eq]
  unfold Ensures Conn.record at *
  split at hbuild
  · rename_i r w hrun
    obtain ⟨hplaced, hcount, hcalls⟩ := hbuild
    rw [hrun]
    exact ⟨hplaced, hcount, by omega⟩
  · rename_i e w hrun
    obtain ⟨⟨kind, rfl⟩, hcalls⟩ := hbuild
    have hdrop := drop_calls w
    rw [hrun]
    exact ⟨⟨kind, rfl⟩, by omega⟩

end Pack

/-! ## A turn of `try_write_stream_vectored` -/

section Write
variable {β ν : Type} [Dwnx ν]

/-- One turn of the loop of `try_write_stream_vectored`, behind `taken` bytes. -/
def tryWriteTurn (stream : StreamId) (fin : Bool) (offered : ℕ) :
    Fragments × ℕ → ConnectionM β ν (Turn (Fragments × ℕ) StreamWrite)
  | (fragments, taken) => do
    match (← get).out.roomFor (offered - taken) (decide (0 < taken)) with
    | none => pure (.done (acceptedOr taken .blocked))
    | some room =>
      let (produced, fragments) ← serialise room (packVectored (some stream) fragments fin)
      let taken := taken + produced.consumed
      match produced.verdict with
      | .closed => pure (.done (acceptedOr taken .closed))
      | .blocked => pure (.done (acceptedOr taken .blocked))
      | .packed =>
        if taken = offered then pure (.done (.accepted taken))
        else if produced.consumed = 0 then pure (.done (acceptedOr taken .blocked))
        else pure (.more (fragments, taken))

theorem tryWriteLoop_turns (stream : StreamId) (fin : Bool) (offered fuel : ℕ) (f : Fragments)
    (taken : ℕ) (c : Connection β ν) :
    loop (tryWriteTurn stream fin offered) fuel (f, taken) c =
      tryWriteLoop stream fin offered fuel f taken c := by
  induction fuel generalizing f taken c with
  | zero => rfl
  | succ fuel ih =>
    rw [loop, tryWriteLoop, tryWriteTurn]
    simp only [bind_assoc]
    rw [bind_ok get_apply, bind_ok get_apply]
    cases c.out.roomFor (offered - taken) (decide (0 < taken)) with
    | none => simp only [pure_bind]
    | some room =>
      simp only [bind_assoc]
      rw [bind_apply, bind_apply]
      cases serialise room (packVectored (some stream) f fin) c with
      | error e c' => rfl
      | ok r c' =>
        obtain ⟨⟨consumed, bytes, verdict⟩, f'⟩ := r
        cases verdict with
        | closed => simp only [pure_bind]
        | blocked => simp only [pure_bind]
        | packed =>
          dsimp only
          split
          · simp only [pure_bind]
          split
          · simp only [pure_bind]
          · simp only [pure_bind]
            exact ih f' _ c'

def tryWriteMeasured (stream : StreamId) (fin : Bool) (offered : ℕ) :
    Measured Error (Connection β ν) (Fragments × ℕ) StreamWrite where
  turn := tryWriteTurn stream fin offered
  I i := Placed i.1
  Q _ _ := True
  measure i := i.1.remaining
  cost c := c.conn.calls.length
  allowance i := 4 * i.1.remaining + 3
  left _ := 0

variable [LawfulDwnx ν]

theorem serialise_ends (stream : Option StreamId) {f : Fragments} (hf : Placed f) (fin : Bool)
    (room : ℕ) (c : Connection β ν) :
    Ensures (serialise room (packVectored stream f fin)) c
      (fun r c' => Placed r.2 ∧ r.1.consumed + r.2.remaining = f.remaining ∧
        c'.conn.calls.length + r.2.remaining ≤ c.conn.calls.length + (f.remaining + 3))
      fun e c' => (∃ error, e = .failed error) ∧
        c'.conn.calls.length ≤ c.conn.calls.length + (f.remaining + 3) := by
  rw [serialise]
  refine ensures_modify.mpr (ensures_modify.mpr (ensures_bind.mpr (ensures_attempt.mpr
    (ensures_within.mpr ((packVectored_ends stream hf fin _ _).mono ?_ ?_)))))
  · intro r conn' h
    exact ensures_modify.mpr (ensures_pure.mpr h)
  · rintro e conn' ⟨⟨kind, rfl⟩, hcalls⟩
    refine (ensures_of_error (failWith_apply _ _)).mpr ?_
    rw [Connection.latch_eq]
    exact ⟨⟨_, rfl⟩, hcalls⟩

theorem tryWriteTurn_descends (stream : StreamId) (fin : Bool) (offered : ℕ) :
    (tryWriteMeasured (β := β) (ν := ν) stream fin offered).Descends := by
  rintro ⟨f, taken⟩ c hf
  show Ensures (tryWriteTurn stream fin offered (f, taken)) c _ _
  rw [tryWriteTurn]
  refine ensures_get.mpr ?_
  split
  · refine ensures_pure.mpr ⟨trivial, ?_⟩
    show c.conn.calls.length + 0 ≤ c.conn.calls.length + (4 * f.remaining + 3)
    omega
  · rename_i room _
    refine ensures_bind.mpr ((serialise_ends (some stream) hf fin room c).mono ?_ ?_)
    · rintro ⟨⟨consumed, bytes, verdict⟩, f'⟩ c' ⟨hplaced, hcount, hcalls⟩
      dsimp only at hplaced hcount hcalls ⊢
      have hdone : c'.conn.calls.length + 0 ≤ c.conn.calls.length + (4 * f.remaining + 3) := by omega
      cases verdict with
      | closed => exact ensures_pure.mpr ⟨trivial, hdone⟩
      | blocked => exact ensures_pure.mpr ⟨trivial, hdone⟩
      | packed =>
        dsimp only
        split
        · exact ensures_pure.mpr ⟨trivial, hdone⟩
        split
        · exact ensures_pure.mpr ⟨trivial, hdone⟩
        · -- the record took a byte, which pays for the calls beside its pushes
          refine ensures_pure.mpr ⟨hplaced, ?_, fun _ => id, ?_⟩
          · show f'.remaining < f.remaining
            omega
          · show c'.conn.calls.length + (4 * f'.remaining + 3) ≤
              c.conn.calls.length + (4 * f.remaining + 3)
            omega
    · rintro e c' ⟨herror, hcalls⟩
      refine ⟨herror, ?_⟩
      dsimp only at hcalls
      show c'.conn.calls.length ≤ c.conn.calls.length + (4 * f.remaining + 3)
      omega

end Write

/-! ## Both loops -/

/-- `m` returns or fails, and what it costs is bounded. -/
def EndsWithin {ε σ α : Type} (cost : σ → ℕ) (bound : ℕ) (m : Program ε σ α) (s : σ) : Prop :=
  Ensures m s (fun _ t => cost t ≤ cost s + bound)
    fun e t => (∃ error, e = .failed error) ∧ cost t ≤ cost s + bound

section Ends
variable {ν : Type} (β : Type) [Dwnx ν]

/-- `pack_vectored` from the cursor `f`: it ends after a number of native calls that the rest
of the offer bounds; its loop is that of its turn, whatever fuel is to spare, and has a value;
and a turn that goes on leaves less of the offer, while none ends in the assertion of
`advance`. -/
structure PackEnds (ν : Type) [Dwnx ν] (fin : Bool) (f : Fragments) : Prop where
  ends : ∀ (stream : Option StreamId) (room : ℕ) (conn : Conn ν),
    EndsWithin (fun conn => conn.calls.length) (f.remaining + 3) (packVectored stream f fin room) conn
  turns : ∀ (stream : Option StreamId) (consumed extra : ℕ) (w : RecordWriter ν),
    loop (packTurn stream fin) (f.remaining + 1 + extra) (f, consumed) w =
      (packLoop stream fin (f.remaining + 1) f consumed >>= fun r => pure (some r)) w
  descends : ∀ (stream : Option StreamId) (consumed : ℕ) (w : RecordWriter ν),
    Ensures (packTurn stream fin (f, consumed)) w
      (fun next _ => match next with
        | .done result => result ≠ none
        | .more (f', _) => f'.remaining < f.remaining)
      fun e _ => ∃ kind, e = .failed kind

/-- The same for the loop of `try_write_stream_vectored`, which has reached the cursor `f`. -/
structure TryWriteEnds (β ν : Type) [Dwnx ν] (stream : StreamId) (fin : Bool) (offered : ℕ)
    (f : Fragments) : Prop where
  ends : ∀ (taken : ℕ) (c : Connection β ν), EndsWithin (fun c => c.conn.calls.length)
    (4 * f.remaining + 3) (tryWriteLoop stream fin offered (f.remaining + 1) f taken) c
  turns : ∀ (taken extra : ℕ) (c : Connection β ν),
    loop (tryWriteTurn stream fin offered) (f.remaining + 1 + extra) (f, taken) c =
      tryWriteLoop stream fin offered (f.remaining + 1) f taken c
  descends : ∀ (taken : ℕ) (c : Connection β ν),
    Ensures (tryWriteTurn stream fin offered (f, taken)) c
      (fun next _ => ∀ f' taken', next = .more (f', taken') → f'.remaining < f.remaining)
      fun e _ => ∃ error, e = .failed error

variable [LawfulDwnx ν]

theorem packEnds (fin : Bool) {f : Fragments} (hf : Placed f) : PackEnds ν fin f := by
  constructor
  · intro stream room conn
    exact (packVectored_ends stream hf fin room conn).mono
      (fun r conn' ⟨_, _, hcalls⟩ => by dsimp only; omega) fun _ _ => id
  · intro stream consumed extra w
    rw [← packLoop_turns stream fin _ hf consumed w]
    exact (packTurn_descends stream fin).fuel (i := (f, consumed)) hf (Nat.lt_succ_self _) extra
  · intro stream consumed w
    refine (packTurn_descends stream fin (f, consumed) w hf).mono ?_ fun _ _ h => h.1
    rintro (result | ⟨f', consumed'⟩) w' hturn
    · obtain ⟨⟨r, rfl, -⟩, -⟩ := hturn
      exact Option.some_ne_none r
    · exact hturn.2.1

theorem tryWriteEnds (stream : StreamId) (fin : Bool) (offered : ℕ) {f : Fragments}
    (hf : Placed f) : TryWriteEnds β ν stream fin offered f := by
  have hdescends := tryWriteTurn_descends (β := β) (ν := ν) stream fin offered
  constructor
  · intro taken c
    have h := hdescends.ensures (i := (f, taken)) (s := c) hf (Nat.lt_succ_self f.remaining)
    unfold Ensures at h
    rw [show (tryWriteMeasured stream fin offered).turn = tryWriteTurn (β := β) (ν := ν) stream fin
      offered from rfl, tryWriteLoop_turns] at h
    unfold EndsWithin Ensures
    cases hrun : tryWriteLoop stream fin offered (f.remaining + 1) f taken c with
    | ok result c' =>
      rw [show f.remaining.succ = f.remaining + 1 from rfl, hrun] at h
      exact h.2
    | error e c' =>
      rw [show f.remaining.succ = f.remaining + 1 from rfl, hrun] at h
      exact h
  · intro taken extra c
    rw [← tryWriteLoop_turns]
    exact hdescends.fuel (i := (f, taken)) hf (Nat.lt_succ_self _) extra
  · intro taken c
    refine (hdescends (f, taken) c hf).mono ?_ fun _ _ h => h.1
    rintro next c' hturn f' taken' rfl
    exact hturn.2.1

theorem placed_advance_new (slices : List Bytes) (passed : ℕ) :
    Placed ((Fragments.new slices).advance passed) := (placed_new slices).advance passed

/-- Both write loops end, whatever the writer answers as long as it takes no more than it was
given, from wherever the cursor stands and however full the outbound buffer is. -/
theorem writeLoops_end (stream : StreamId) (slices : List Bytes) (fin : Bool) :
    (∀ passed, PackEnds ν fin ((Fragments.new slices).advance passed) ∧
      ∀ offered, TryWriteEnds β ν stream fin offered ((Fragments.new slices).advance passed)) ∧
    ∀ c : Connection β ν, EndsWithin (fun c => c.conn.calls.length) (4 * slices.flatten.length + 3)
      (tryWriteStreamVectored stream slices fin) c := by
  refine ⟨fun passed => ⟨packEnds fin (placed_advance_new slices passed), fun offered =>
    tryWriteEnds β stream fin offered (placed_advance_new slices passed)⟩, fun c => ?_⟩
  unfold EndsWithin
  cases hterminal : c.terminal with
  | some error =>
    rw [tryWriteStreamVectored, ensures_of_error (bind_error (checkTerminal_ended hterminal))]
    exact ⟨⟨error, rfl⟩, Nat.le_add_right _ _⟩
  | none =>
    have hends := (tryWriteEnds β (ν := ν) stream fin (Fragments.new slices).remaining
      (placed_new slices)).ends 0 c
    rw [tryWriteStreamVectored, ensures_bind, ensures_of_ok (checkTerminal_open hterminal)]
    have hlen : (Fragments.new slices).remaining = slices.flatten.length := by
      rw [remaining_eq, rest_new]
    dsimp only
    rw [hlen] at hends ⊢
    exact hends

end Ends

/-- A writer that takes a byte, then fills the record, then answers that the stream is blocked. -/
def blockingWriter : ScriptedDwnx where
  writevs := [⟨.writeMore, some 1⟩, ⟨.record [9], some 1⟩, ⟨.streamDataBlocked, none⟩, ⟨.record [9], none⟩]

/-- Two records, the second of them blocked before it took a byte: four native calls. -/
theorem writeLoops_end_blocked :
    let c : Connection ScriptedStream ScriptedDwnx := .new {} blockingWriter .client 0
    let run := outcome (tryWriteStreamVectored ⟨0, by decide⟩ [[1], [], [2, 3, 4]] true) c
    run.1 = .ok (.accepted 2) ∧ run.2.conn.calls.length = 4 ∧
      EndsWithin (fun c => c.conn.calls.length) 19
        (tryWriteStreamVectored ⟨0, by decide⟩ [[1], [], [2, 3, 4]] true) c :=
  ⟨by decide, by decide, (writeLoops_end ScriptedStream ⟨0, by decide⟩ [[1], [], [2, 3, 4]] true).2
    (.new {} blockingWriter .client 0)⟩

end Ngnet.QmuxWriteLoops
