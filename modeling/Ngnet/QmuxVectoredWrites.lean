import Ngnet.QmuxConnection

/-!
# Vectored writes

What one call of `try_write_stream_vectored` submits to the native record writer, over every
packing: takes that stop inside a fragment, offers of more fragments than one push carries,
several pushes in a record and several records in a call. `Packs` says what such a sequence of
pushes may look like from the offer's point of view; that the program's pushes are of this form
is proved once, and everything about bytes and end-of-stream markers is read off it.
-/

namespace Ngnet.QmuxVectoredWrites
open QmuxVarints QmuxErrors QmuxStreams StatefulPrograms QmuxRecordWriter QmuxConnection

/-! ## The cursor -/

/-- The bytes of the offer that are still to go. -/
def rest (f : Fragments) : Bytes := f.left.flatten

theorem remaining_eq (f : Fragments) : f.remaining = (rest f).length := by
  rw [Fragments.remaining, rest, List.length_flatten]

theorem isEmpty_iff (f : Fragments) : f.isEmpty = true ↔ rest f = [] := by
  rw [Fragments.isEmpty, remaining_eq, beq_iff_eq, List.length_eq_zero_iff]

theorem rest_new (slices : List Bytes) : rest (Fragments.new slices) = slices.flatten := by
  cases slices <;> simp [rest, Fragments.left, Fragments.new]

theorem rest_of_drop_nil {f : Fragments} (h : f.slices.drop f.index = []) : rest f = [] := by
  simp [rest, Fragments.left, h]

theorem rest_of_drop_cons {f : Fragments} {slice : Bytes} {more : List Bytes}
    (h : f.slices.drop f.index = slice :: more) :
    rest f = slice.drop f.offset ++ more.flatten := by
  simp [rest, Fragments.left, h]

theorem rest_advanceOver (slices : List Bytes) :
    ∀ (f : Fragments) (bytes : ℕ), f.slices.drop f.index = slices →
      rest (Fragments.advanceOver slices f bytes) = (rest f).drop bytes := by
  induction slices with
  | nil =>
    intro f bytes h
    rw [Fragments.advanceOver, rest_of_drop_nil h, List.drop_nil]
  | cons slice more ih =>
    intro f bytes h
    have hrest := rest_of_drop_cons h
    have hmore : f.slices.drop (f.index + 1) = more := by
      rw [← List.drop_drop, h, List.drop_succ_cons, List.drop_zero]
    rw [Fragments.advanceOver]
    by_cases hzero : bytes = 0
    · simp [hzero]
    rw [if_neg hzero]
    by_cases hshort : bytes < slice.length - f.offset
    · -- the take stops inside this fragment
      rw [if_pos hshort, hrest, rest_of_drop_cons (f := { f with offset := f.offset + bytes }) h,
        List.drop_append_of_le_length (by simp; omega), List.drop_drop]
    · rw [if_neg hshort, ih _ _ hmore, hrest]
      have hstart : rest ⟨f.slices, f.index + 1, 0⟩ = more.flatten := by
        cases hm : more with
        | nil => exact rest_of_drop_nil (f := ⟨f.slices, f.index + 1, 0⟩) (hmore.trans hm)
        | cons s m =>
          rw [rest_of_drop_cons (f := ⟨f.slices, f.index + 1, 0⟩) (hmore.trans hm)]
          simp
      have hpast : (slice.drop f.offset).drop bytes = [] := List.drop_eq_nil_of_le (by simp; omega)
      rw [hstart, List.drop_append, hpast, List.nil_append, List.length_drop]

theorem rest_advance (f : Fragments) (bytes : ℕ) : rest (f.advance bytes) = (rest f).drop bytes :=
  rest_advanceOver _ f bytes rfl

/-! ## What one push submits -/

theorem gather_flatten (fragments : List Bytes) :
    ∀ room, ∃ behind, fragments.flatten = (gather room fragments).1.flatten ++ behind ∧
      ((gather room fragments).2 = true ↔ behind = []) := by
  induction fragments with
  | nil => intro room; exact ⟨[], by simp [gather]⟩
  | cons fragment more ih =>
    intro room
    by_cases hempty : fragment = []
    · obtain ⟨behind, heq, hwhole⟩ := ih room
      exact ⟨behind, by simp [gather, hempty, heq, hwhole]⟩
    · cases room with
      | zero => exact ⟨fragment ++ more.flatten, by simp [gather, hempty]⟩
      | succ room =>
        obtain ⟨behind, heq, hwhole⟩ := ih room
        exact ⟨behind, by simp [gather, hempty, heq, hwhole]⟩

theorem gather_gather (fragments : List Bytes) :
    ∀ room, gather room (gather room fragments).1 = ((gather room fragments).1, true) := by
  induction fragments with
  | nil => intro room; simp [gather]
  | cons fragment more ih =>
    intro room
    by_cases hempty : fragment = []
    · simp [gather, hempty, ih]
    · cases room with
      | zero => simp [gather, hempty]
      | succ room => simp [gather, hempty, ih]

/-! ## Sequences of pushes -/

/-- The bytes a sequence of native calls took, in order. -/
def takenBytes : List NativeCall → Bytes
  | [] => []
  | .writev call answer :: calls =>
    call.data.flatten.take (answer.taken.getD 0) ++ takenBytes calls
  | _ :: calls => takenBytes calls

/-- The sum of the counts these calls reported. -/
def takenCount : List NativeCall → ℕ
  | [] => 0
  | .writev _ answer :: calls => answer.taken.getD 0 + takenCount calls
  | _ :: calls => takenCount calls

/-- The call carried the end-of-stream marker and was answered with a count. -/
def serialisedFin : NativeCall → Bool
  | .writev call answer => call.fin && answer.taken.isSome
  | _ => false

/-- A push that carried the end-of-stream marker was reported as serialised. -/
def FinSerialised (calls : List NativeCall) : Prop := ∃ call ∈ calls, serialisedFin call = true

instance (calls : List NativeCall) : Decidable (FinSerialised calls) :=
  inferInstanceAs (Decidable (∃ call ∈ calls, serialisedFin call = true))

/-- The end-of-stream marker rides only on a push of everything that is left of the offer. -/
def FinOnTheRest (offer : Bytes) (calls : List NativeCall) : Prop :=
  ∀ before call answer after, calls = before ++ .writev call answer :: after → call.fin = true →
    call.data.flatten = offer.drop (takenCount before)

/-- Pushes that begin with `rest` left of an offer and leave `rest'` of it. -/
inductive Packs (fin : Bool) : Bytes → List NativeCall → Bytes → Prop
  | nil (rest : Bytes) : Packs fin rest [] rest
  | push {rest rest' : Bytes} {call : Writev} {answer : WritevAnswer} {calls : List NativeCall}
      (submits : call.data.flatten <+: rest)
      (takes : answer.taken.getD 0 ≤ call.data.flatten.length)
      (marks : call.fin = true → call.data.flatten = rest)
      (marked : fin = true → call.data.flatten = rest → rest ≠ [] → call.fin = true)
      (more : Packs fin (rest.drop (answer.taken.getD 0)) calls rest') :
      Packs fin rest (.writev call answer :: calls) rest'

namespace Packs

variable {fin : Bool} {rest rest' : Bytes} {calls : List NativeCall}

theorem append {rest'' : Bytes} {more : List NativeCall}
    (h : Packs fin rest calls rest') (h' : Packs fin rest' more rest'') :
    Packs fin rest (calls ++ more) rest'' := by
  induction h with
  | nil => exact h'
  | push submits takes marks marked _ ih => exact .push submits takes marks marked (ih h')

theorem control (rest : Bytes) {call : Writev} {answer : WritevAnswer}
    (hdata : call.data.flatten = []) (hfin : call.fin = false)
    (htaken : answer.taken.getD 0 ≤ call.data.flatten.length) :
    Packs fin rest [.writev call answer] rest := by
  have hzero : answer.taken.getD 0 = 0 := by simpa [hdata] using htaken
  refine .push (by simp [hdata]) htaken (by simp [hfin]) ?_ ?_
  · intro _ heq hne
    exact absurd (heq.symm.trans hdata) hne
  · rw [hzero, List.drop_zero]
    exact .nil rest

theorem rest_eq
    (h : Packs fin rest calls rest') :
    rest = takenBytes calls ++ rest' ∧ (takenBytes calls).length = takenCount calls := by
  induction h with
  | nil => exact ⟨rfl, rfl⟩
  | @push rest rest' call answer calls submits takes marks marked more ih =>
    obtain ⟨behind, rfl⟩ := submits
    rw [List.drop_append_of_le_length takes] at ih
    refine ⟨?_, ?_⟩
    · rw [takenBytes, List.append_assoc, ← ih.1, ← List.append_assoc, List.take_append_drop]
    · rw [takenBytes, takenCount, List.length_append, ih.2, List.length_take, Nat.min_eq_left takes]

theorem finOnTheRest
    (h : Packs fin rest calls rest') : FinOnTheRest rest calls := by
  induction h with
  | nil => intro before call answer after heq; simp at heq
  | @push rest rest' call answer calls submits takes marks marked more ih =>
    intro before call' answer' after heq hfin
    cases before with
    | nil =>
      obtain ⟨⟨rfl, rfl⟩, rfl⟩ : (call = call' ∧ answer = answer') ∧ calls = after := by
        simpa using heq
      simpa [takenCount] using marks hfin
    | cons first before =>
      obtain ⟨rfl, rfl⟩ : .writev call answer = first ∧ calls = before ++ .writev call' answer' :: after := by
        simpa using heq
      rw [ih before call' answer' after rfl hfin, takenCount, List.drop_drop]

theorem finSerialised
    (h : Packs true rest calls rest') (hne : rest ≠ []) (hempty : rest' = []) :
    FinSerialised calls := by
  induction h with
  | nil => exact absurd hempty hne
  | @push rest rest' call answer calls submits takes marks marked more ih =>
    by_cases hlast : rest.drop (answer.taken.getD 0) = []
    · have hall : call.data.flatten = rest :=
        submits.eq_of_length_le (le_trans (List.drop_eq_nil_iff.mp hlast) takes)
      have hsome : answer.taken.isSome := by
        cases htaken : answer.taken with
        | none => simp [htaken] at hlast; exact absurd hlast hne
        | some n => rfl
      exact ⟨.writev call answer, by simp, by simp [serialisedFin, marked rfl hall hne, hsome]⟩
    · obtain ⟨call', hmem, hfin⟩ := ih hlast hempty
      exact ⟨call', List.mem_cons_of_mem _ hmem, hfin⟩

end Packs

/-! ## The pushes of the program -/

section Program
variable {ν : Type} [Dwnx ν] [LawfulDwnx ν]

/-- The calls made between two logs are pushes of an offer. -/
def Pushed (fin : Bool) (rest : Bytes) (before after : List NativeCall) (rest' : Bytes) : Prop :=
  ∃ calls, after = before ++ calls ∧ Packs fin rest calls rest'

variable {fin : Bool}

theorem Pushed.refl {rest : Bytes} {calls : List NativeCall} :
    Pushed fin rest calls calls rest := ⟨[], by simp, .nil rest⟩

theorem Pushed.trans {rest rest' rest'' : Bytes} {calls calls' calls'' : List NativeCall}
    (h : Pushed fin rest calls calls' rest') (h' : Pushed fin rest' calls' calls'' rest'') :
    Pushed fin rest calls calls'' rest'' := by
  obtain ⟨new, rfl, hp⟩ := h
  obtain ⟨new', rfl, hp'⟩ := h'
  exact ⟨new ++ new', by simp, hp.append hp'⟩

/-- The count a push reports for the data it submitted. -/
def pushTaken : Push → Option ℕ
  | .accepted taken | .complete taken => taken
  | .streamBlocked | .streamClosed => none

theorem writev_calls (call : Writev) (conn : Conn ν) :
    ∃ answer conn', conn.writev call = (answer, conn') ∧
      conn'.calls = conn.calls ++ [.writev call answer] ∧
      answer.taken.getD 0 ≤ call.data.flatten.length := by
  obtain ⟨signals, heq⟩ := Conn.withBridge_eq (Dwnx.writev call) (.writev call) conn
  refine ⟨_, _, heq, rfl, ?_⟩
  cases htaken : (Dwnx.writev call conn.raw).1.answer.taken with
  | none => simp
  | some taken => exact LawfulDwnx.takes_le call conn.raw taken htaken

theorem pushVectored_ensures (request : VectoredWriteRequest) (w : RecordWriter ν) :
    Ensures (RecordWriter.pushVectored request) w
      (fun push w' => (push = .complete none ∧ w' = w) ∨
        ∃ answer, w'.conn.calls = w.conn.calls ++
            [.writev (RecordWriter.submission w.room request) answer] ∧
          answer.taken = pushTaken push ∧ answer.taken.getD 0 ≤
            (RecordWriter.submission w.room request).data.flatten.length)
      fun e w' => (∃ kind, e = .failed kind) ∧
        ∃ answer, w'.conn.calls = w.conn.calls ++
            [.writev (RecordWriter.submission w.room request) answer] ∧
          answer.taken = none := by
  by_cases hclosed : (w.tooSmall || w.record.isSome) = true
  · rw [Ensures, RecordWriter.pushVectored_closed request hclosed]
    exact .inl ⟨rfl, rfl⟩
  · obtain ⟨answer, conn, hcall, hcalls, htaken⟩ :=
      writev_calls (RecordWriter.submission w.room request) w.conn
    rw [Ensures, RecordWriter.pushVectored_open hclosed hcall]
    obtain ⟨result, pdatalen⟩ := answer
    cases result with
    | record bytes => exact .inr ⟨_, hcalls, rfl, htaken⟩
    | writeMore => exact .inr ⟨_, hcalls, rfl, htaken⟩
    | streamDataBlocked => exact .inr ⟨_, hcalls, rfl, htaken⟩
    | streamShutWr => exact .inr ⟨_, hcalls, rfl, htaken⟩
    | failed kind => exact ⟨⟨kind, rfl⟩, _, hcalls, rfl⟩

/-- The data of a push of the loop is a beginning of the rest, and the marker rides on it just
when it is all of the rest. -/
theorem submission_chunk (stream : Option StreamId) (fin : Bool) (f : Fragments) (room : ℕ) :
    let call := RecordWriter.submission room ⟨stream, f.chunk.1, fin && f.chunk.2⟩
    call.data.flatten <+: rest f ∧ (call.fin = true ↔ fin = true ∧ call.data.flatten = rest f) := by
  obtain ⟨behind, heq, hwhole⟩ := gather_flatten f.left maxVectors
  have hdata : (RecordWriter.submission room ⟨stream, f.chunk.1, fin && f.chunk.2⟩).data =
      (gather maxVectors f.left).1 := by
    simp only [RecordWriter.submission, Fragments.chunk, gather_gather]
  have hfin : (RecordWriter.submission room ⟨stream, f.chunk.1, fin && f.chunk.2⟩).fin =
      (fin && (gather maxVectors f.left).2) := by
    simp only [RecordWriter.submission, Fragments.chunk, gather_gather, Bool.and_true]
  dsimp only
  rw [hdata, hfin, rest, heq]
  refine ⟨List.prefix_append _ _, ?_⟩
  rw [Bool.and_eq_true, hwhole, List.self_eq_append_right]

theorem pushed_chunk {stream : Option StreamId} {f : Fragments} {room : ℕ}
    {before : List NativeCall} {answer : WritevAnswer}
    (htaken : answer.taken.getD 0 ≤
      (RecordWriter.submission room ⟨stream, f.chunk.1, fin && f.chunk.2⟩).data.flatten.length) :
    Pushed fin (rest f) before
      (before ++ [.writev (RecordWriter.submission room ⟨stream, f.chunk.1, fin && f.chunk.2⟩) answer])
      (rest (f.advance (answer.taken.getD 0))) := by
  obtain ⟨hsub, hfin⟩ := submission_chunk stream fin f room
  refine ⟨_, rfl, .push hsub htaken (fun h => (hfin.mp h).2) (fun h h' _ => hfin.mpr ⟨h, h'⟩) ?_⟩
  rw [rest_advance]
  exact .nil _

/-- What the loop of `pack_vectored` has done when it stops: its pushes are pushes of the offer,
and it reports their total. -/
theorem packLoop_ensures (stream : Option StreamId) (fin : Bool) (fuel : ℕ) :
    ∀ (f : Fragments) (consumed : ℕ) (w : RecordWriter ν), (rest f).length < fuel →
      Ensures (packLoop stream fin fuel f consumed) w
        (fun r w' => Pushed fin (rest f) w.conn.calls w'.conn.calls (rest r.2.2) ∧
          r.1 + (rest r.2.2).length = consumed + (rest f).length)
        fun e w' => (∃ kind, e = .failed kind) ∧
          ∃ left, Pushed fin (rest f) w.conn.calls w'.conn.calls left := by
  induction fuel with
  | zero => intro f consumed w h; omega
  | succ fuel ih =>
    intro f consumed w hfuel
    rw [packLoop]
    refine ensures_bind.mpr (ensures_attempt.mpr ((pushVectored_ensures _ w).mono ?_ ?_))
    · intro push w' hpush
      -- one push of the loop, whatever it answered
      have hstep : Pushed fin (rest f) w.conn.calls w'.conn.calls
          (rest (f.advance ((pushTaken push).getD 0))) ∧
          (pushTaken push).getD 0 ≤ (rest f).length := by
        rcases hpush with ⟨rfl, rfl⟩ | ⟨answer, hcalls, htaken, hle⟩
        · refine ⟨?_, Nat.zero_le _⟩
          rw [rest_advance]
          exact .refl
        · rw [hcalls, ← htaken]
          exact ⟨pushed_chunk hle, le_trans hle (submission_chunk stream fin f w.room).1.length_le⟩
      have hlen : (pushTaken push).getD 0 + (rest (f.advance ((pushTaken push).getD 0))).length =
          (rest f).length := by
        rw [rest_advance, List.length_drop]
        omega
      cases push with
      | accepted taken =>
        simp only [pushTaken] at hstep hlen
        dsimp only
        split
        · exact ensures_pure.mpr ⟨hstep.1, by dsimp only; omega⟩
        split
        · exact ensures_pure.mpr ⟨hstep.1, by dsimp only; omega⟩
        · refine (ih _ _ w' (by omega)).mono ?_ ?_
          · rintro r w'' ⟨hmore, hcount⟩
            exact ⟨hstep.1.trans hmore, by omega⟩
          · rintro e w'' ⟨hkind, left, hmore⟩
            exact ⟨hkind, left, hstep.1.trans hmore⟩
      | complete taken =>
        simp only [pushTaken] at hstep hlen
        exact ensures_pure.mpr ⟨hstep.1, by dsimp only; omega⟩
      | streamBlocked =>
        simp only [pushTaken, Option.getD_none, rest_advance, List.drop_zero] at hstep
        exact ensures_pure.mpr ⟨hstep.1, rfl⟩
      | streamClosed =>
        simp only [pushTaken, Option.getD_none, rest_advance, List.drop_zero] at hstep
        exact ensures_pure.mpr ⟨hstep.1, rfl⟩
    · rintro e w' ⟨⟨kind, rfl⟩, answer, hcalls, htaken⟩
      have hstep : Pushed fin (rest f) w.conn.calls w'.conn.calls (rest f) := by
        have hle : answer.taken.getD 0 ≤ (RecordWriter.submission w.room
            ⟨stream, f.chunk.1, fin && f.chunk.2⟩).data.flatten.length := by simp [htaken]
        have h : Pushed fin (rest f) w.conn.calls _ _ := pushed_chunk hle
        rw [htaken, rest_advance, Option.getD_none, List.drop_zero] at h
        rw [hcalls]
        exact h
      dsimp only
      split
      · exact ensures_pure.mpr ⟨hstep, rfl⟩
      · exact ensures_fail.mpr ⟨⟨kind, rfl⟩, _, hstep⟩

theorem pushed_control {room : ℕ} {left : Bytes} {before : List NativeCall}
    {answer : WritevAnswer} (hle : answer.taken.getD 0 ≤ 0) :
    Pushed fin left before (before ++ [.writev ⟨room, false, none, []⟩ answer]) left :=
  ⟨_, rfl, .control left rfl rfl (by simpa using hle)⟩

theorem finish_ensures (fin : Bool) (left : Bytes) (w : RecordWriter ν) :
    Ensures RecordWriter.finish w
      (fun _ w' => Pushed fin left w.conn.calls w'.conn.calls left)
      fun e w' => (∃ kind, e = .failed kind) ∧ Pushed fin left w.conn.calls w'.conn.calls left := by
  rw [RecordWriter.finish]
  refine ensures_get.mpr ?_
  split
  · exact ensures_pure.mpr .refl
  · split
    · refine ensures_bind.mpr ((pushVectored_ensures controlOnly w).mono ?_ ?_)
      · rintro push w' hpush
        refine ensures_get.mpr (ensures_pure.mpr ?_)
        rcases hpush with ⟨-, rfl⟩ | ⟨answer, hcalls, -, hle⟩
        · exact .refl
        · rw [hcalls]
          exact pushed_control hle
      · rintro e w' ⟨hkind, answer, hcalls, htaken⟩
        refine ⟨hkind, ?_⟩
        rw [hcalls]
        exact pushed_control (by simp [htaken])
    · exact ensures_get.mpr (ensures_pure.mpr .refl)

theorem drop_pushed (fin : Bool) (left : Bytes) (w : RecordWriter ν) :
    Pushed fin left w.conn.calls w.drop.calls left := by
  rw [RecordWriter.drop]
  split
  · obtain ⟨answer, conn, hcall, hcalls, hle⟩ := writev_calls ⟨w.room, false, none, []⟩ w.conn
    rw [hcall, hcalls]
    exact pushed_control hle
  · exact .refl

/-- A record that is built, or abandoned, pushes the offer from the cursor on; what it consumed
is what the cursor moved. -/
theorem packVectored_ensures (stream : Option StreamId) (f : Fragments) (fin : Bool) (room : ℕ)
    (conn : Conn ν) :
    Ensures (packVectored stream f fin room) conn
      (fun r conn' => Pushed fin (rest f) conn.calls conn'.calls (rest r.2) ∧
        r.1.consumed + (rest r.2).length = (rest f).length)
      fun e conn' => (∃ kind, e = .failed kind) ∧
        ∃ left, Pushed fin (rest f) conn.calls conn'.calls left := by
  have hbuild : Ensures (packing stream f fin)
      (RecordWriter.new conn room)
      (fun r w => Pushed fin (rest f) conn.calls w.conn.calls (rest r.2) ∧
        r.1.consumed + (rest r.2).length = (rest f).length)
      fun e w => (∃ kind, e = .failed kind) ∧
        ∃ left, Pushed fin (rest f) conn.calls w.conn.calls left := by
    rw [packing]
    refine ensures_bind.mpr ((packLoop_ensures stream fin _ f 0 _ (by rw [remaining_eq]; omega)).mono
      ?_ fun _ _ => id)
    rintro ⟨consumed, verdict, f'⟩ w ⟨hpushed, hcount⟩
    refine ensures_bind.mpr ((finish_ensures fin (rest f') w).mono ?_ ?_)
    · intro bytes w' hfinish
      exact ensures_pure.mpr ⟨hpushed.trans hfinish, by simpa using hcount⟩
    · rintro e w' ⟨hkind, hfinish⟩
      exact ⟨hkind, _, hpushed.trans hfinish⟩
  rw [packVectored_eq]
  unfold Ensures Conn.record at *
  split at hbuild
  · rename_i r w hrun
    rw [hrun]
    exact hbuild
  · rename_i e w hrun
    obtain ⟨⟨kind, rfl⟩, left, hpushed⟩ := hbuild
    rw [hrun]
    exact ⟨⟨kind, rfl⟩, left, hpushed.trans (drop_pushed fin left w)⟩

variable {β : Type}

theorem serialise_ensures (stream : Option StreamId) (f : Fragments) (fin : Bool) (room : ℕ)
    (c : Connection β ν) :
    Ensures (serialise room (packVectored stream f fin)) c
      (fun r c' => Pushed fin (rest f) c.conn.calls c'.conn.calls (rest r.2) ∧
        r.1.consumed + (rest r.2).length = (rest f).length)
      fun e c' => (∃ error, e = .failed error) ∧ c'.terminal.isSome ∧
        ∃ left, Pushed fin (rest f) c.conn.calls c'.conn.calls left := by
  rw [serialise]
  refine ensures_modify.mpr (ensures_modify.mpr (ensures_bind.mpr (ensures_attempt.mpr
    (ensures_within.mpr ((packVectored_ensures stream f fin _ _).mono ?_ ?_)))))
  · intro r conn' h
    exact ensures_modify.mpr (ensures_pure.mpr h)
  · rintro e conn' ⟨⟨kind, rfl⟩, left, hpushed⟩
    refine (ensures_of_error (failWith_apply _ _)).mpr ?_
    rw [Connection.latch_eq]
    exact ⟨⟨_, rfl⟩, rfl, left, hpushed⟩

/-- What a call reports for `n` bytes taken. -/
def Reports (n : ℕ) (result : StreamWrite) : Prop :=
  result = .accepted n ∨ n = 0 ∧ (result = .blocked ∨ result = .closed)

theorem reports_acceptedOr (n : ℕ) {refusal : StreamWrite}
    (h : refusal = .blocked ∨ refusal = .closed) : Reports n (acceptedOr n refusal) := by
  unfold acceptedOr
  split
  · exact .inl rfl
  · exact .inr ⟨by omega, h⟩

theorem tryWriteLoop_ensures (stream : StreamId) (fin : Bool) (offered fuel : ℕ) :
    ∀ (f : Fragments) (taken : ℕ) (c : Connection β ν), (rest f).length < fuel →
      Ensures (tryWriteLoop stream fin offered fuel f taken) c
        (fun result c' => ∃ left n, Pushed fin (rest f) c.conn.calls c'.conn.calls left ∧
          n + left.length = taken + (rest f).length ∧ Reports n result)
        fun e c' => (∃ error, e = .failed error) ∧ c'.terminal.isSome ∧
          ∃ left, Pushed fin (rest f) c.conn.calls c'.conn.calls left := by
  induction fuel with
  | zero => intro f taken c h; omega
  | succ fuel ih =>
    intro f taken c hfuel
    rw [tryWriteLoop]
    refine ensures_get.mpr ?_
    split
    · exact ensures_pure.mpr ⟨rest f, taken, .refl, rfl, reports_acceptedOr _ (.inl rfl)⟩
    · rename_i room hroom
      refine ensures_bind.mpr ((serialise_ensures (some stream) f fin room c).mono ?_ fun _ _ => id)
      rintro ⟨⟨consumed, bytes, verdict⟩, f'⟩ c' ⟨hpushed, hcount⟩
      dsimp only at hpushed hcount ⊢
      cases verdict with
      | closed => exact ensures_pure.mpr ⟨_, _, hpushed, by omega, reports_acceptedOr _ (.inr rfl)⟩
      | blocked => exact ensures_pure.mpr ⟨_, _, hpushed, by omega, reports_acceptedOr _ (.inl rfl)⟩
      | packed =>
        dsimp only
        split
        · exact ensures_pure.mpr ⟨_, _, hpushed, by omega, .inl rfl⟩
        split
        · exact ensures_pure.mpr ⟨_, _, hpushed, by omega, reports_acceptedOr _ (.inl rfl)⟩
        · refine (ih f' (taken + consumed) c' (by omega)).mono ?_ ?_
          · rintro result c'' ⟨left, n, hmore, hleft, hresult⟩
            exact ⟨left, n, hpushed.trans hmore, by omega, hresult⟩
          · rintro e c'' ⟨herror, hterminal, left, hmore⟩
            exact ⟨herror, hterminal, left, hpushed.trans hmore⟩

/-- One call: it returns, its pushes are pushes of the offer, and what it reports is how many
bytes they took. A call that fails leaves the ending latched. -/
theorem tryWriteStreamVectored_ensures (stream : StreamId) (slices : List Bytes) (fin : Bool)
    (c : Connection β ν) :
    Ensures (tryWriteStreamVectored stream slices fin) c
      (fun result c' => ∃ calls left, c'.conn.calls = c.conn.calls ++ calls ∧
        Packs fin slices.flatten calls left ∧ Reports (takenCount calls) result)
      fun e c' => (∃ error, e = .failed error) ∧ c'.terminal.isSome ∧
        ∃ calls left, c'.conn.calls = c.conn.calls ++ calls ∧
          Packs fin slices.flatten calls left := by
  cases hterminal : c.terminal with
  | some error =>
    rw [tryWriteStreamVectored, ensures_of_error (bind_error (checkTerminal_ended hterminal))]
    exact ⟨⟨error, rfl⟩, by simp [hterminal], [], slices.flatten, by simp, .nil _⟩
  | none =>
    rw [tryWriteStreamVectored, ensures_bind, ensures_of_ok (checkTerminal_open hterminal)]
    have h := tryWriteLoop_ensures stream fin (Fragments.new slices).remaining
      ((Fragments.new slices).remaining + 1) (Fragments.new slices) 0 c (by rw [remaining_eq]; omega)
    refine h.mono ?_ ?_
    · rintro result c' ⟨left, n, ⟨calls, hcalls, hpacks⟩, hn, hresult⟩
      rw [rest_new] at hpacks hn
      obtain ⟨heq, hlen⟩ := hpacks.rest_eq
      have htaken : n = takenCount calls := by
        have := congrArg List.length heq
        rw [List.length_append, hlen] at this
        omega
      exact ⟨calls, left, hcalls, hpacks, htaken ▸ hresult⟩
    · rintro e c' ⟨herror, hlatched, left, calls, hcalls, hpacks⟩
      rw [rest_new] at hpacks
      exact ⟨herror, hlatched, calls, left, hcalls, hpacks⟩

/-! ## No byte lost, none sent twice -/

/-- How many bytes a caller counts as accepted. -/
def reported : StreamWrite → ℕ
  | .accepted n => n
  | .blocked | .closed => 0

theorem Reports.reported {n : ℕ} {result : StreamWrite} (h : Reports n result) :
    reported result = n := by
  rcases h with rfl | ⟨rfl, rfl | rfl⟩ <;> rfl

/-- Successive offers of what is left of `offer`, cut into fragments anew each time, on a
connection to which anything may have happened in between: `sent` was taken and `left` is
what the caller holds to be still to go. -/
inductive Reoffered (β ν : Type) [Dwnx ν] (stream : StreamId) (offer : Bytes) : Bytes → Bytes → Prop
  | start : Reoffered β ν stream offer [] offer
  | again {sent left : Bytes} {slices : List Bytes} {fin : Bool} {c c' : Connection β ν}
      {result : StreamWrite} {calls : List NativeCall} (earlier : Reoffered β ν stream offer sent left)
      (offers : slices.flatten = left)
      (returns : outcome (tryWriteStreamVectored stream slices fin) c = (.ok result, c'))
      (makes : c'.conn.calls = c.conn.calls ++ calls) :
      Reoffered β ν stream offer (sent ++ takenBytes calls) (left.drop (reported result))

theorem reoffered_exact {stream : StreamId} {offer sent left : Bytes}
    (h : Reoffered β ν stream offer sent left) : offer = sent ++ left := by
  induction h with
  | start => rfl
  | @again sent left slices fin c c' result calls _ offers returns makes ih =>
    have hcall := tryWriteStreamVectored_ensures stream slices fin c
    unfold Ensures at hcall
    unfold outcome at returns
    split at hcall
    · rename_i result' d hrun
      rw [hrun] at returns
      obtain ⟨rfl, rfl⟩ : result' = result ∧ d = c' := by simpa using returns
      obtain ⟨calls', rest', hcalls, hpacks, hresult⟩ := hcall
      obtain rfl : calls' = calls := List.append_cancel_left (hcalls.symm.trans makes)
      obtain ⟨heq, hlen⟩ := hpacks.rest_eq
      rw [ih, hresult.reported, ← hlen, ← offers, List.append_assoc]
      conv_lhs => rw [heq]
      rw [heq, List.drop_left]
    · rename_i e d hrun
      rw [hrun] at returns
      simp at returns

end Program

/-! ## The end-of-stream marker -/

section Marker
variable {β ν : Type} [Dwnx ν]

/-- The native call for an offer that is only an end-of-stream marker. -/
def finOnly (stream : StreamId) : Writev := ⟨maxRecord, true, some stream, []⟩

/-- The native call that closes a record. -/
def closingCall : Writev := ⟨maxRecord, false, none, []⟩

variable {f : Fragments}

theorem chunk_finOnly (h : rest f = []) : f.chunk = ([], true) := by
  have key : ∀ fragments : List Bytes, fragments.flatten = [] →
      gather maxVectors fragments = ([], true) := by
    intro fragments
    induction fragments with
    | nil => intro _; rfl
    | cons fragment more ih =>
      intro hnil
      rw [List.flatten_cons, List.append_eq_nil_iff] at hnil
      simp [gather, hnil.1, ih hnil.2]
  exact key f.left h

omit [Dwnx ν] in
theorem new_open (conn : Conn ν) :
    ¬((RecordWriter.new conn maxRecord).tooSmall || (RecordWriter.new conn maxRecord).record.isSome) =
      true := by
  simp [RecordWriter.new, maxRecord, maxRecordSize, minUsableBuffer]

variable {stream : StreamId} {conn : Conn ν} {answer : WritevAnswer}

/-- The loop of `pack_vectored` on a marker alone: one push. A record that carried other frames
instead of the marker ends it as one that carried the marker does. -/
theorem packLoop_finOnly (hrest : rest f = [])
    {conn' : Conn ν}
    (hcall : conn.writev (finOnly stream) = (answer, conn')) :
    packLoop (some stream) true 1 f 0 (RecordWriter.new conn maxRecord) =
      let w := { RecordWriter.new conn maxRecord with conn := conn' }
      let taken := answer.pdatalen.getD 0
      match answer.result with
      | .record bytes => .ok (taken, .packed, f.advance taken) { w with record := some bytes }
      | .writeMore => .ok (taken, .packed, f.advance taken) { w with started := true }
      | .streamDataBlocked => .ok (0, .blocked, f) w
      | .streamShutWr => .ok (0, .closed, f) w
      | .failed kind =>
        if kind = .stream then .ok (0, .closed, f) { w with started := true }
        else .error (.failed kind) { w with started := true } := by
  have hempty (n : ℕ) : (f.advance n).isEmpty = true := by
    rw [isEmpty_iff, rest_advance, hrest, List.drop_nil]
  have hcall' : (RecordWriter.new conn maxRecord).conn.writev
      (RecordWriter.submission maxRecord ⟨some stream, [], true && true⟩) = (answer, conn') := hcall
  have hpush := RecordWriter.pushVectored_open (new_open conn) hcall'
  rw [packLoop, chunk_finOnly hrest]
  dsimp only
  rw [bind_apply, attempt, hpush]
  obtain ⟨result, pdatalen⟩ := answer
  cases result with
  | record bytes => simp [pure_apply, RecordWriter.new]
  | writeMore => simp [pure_apply, hempty]
  | streamDataBlocked => simp [pure_apply]
  | streamShutWr => simp [pure_apply]
  | failed kind =>
    dsimp only
    by_cases hkind : kind = .stream
    · simp [pure_apply, hkind]
    · simp [fail_apply, hkind]

/-- Finishing a record that dwnx has not declared complete asks for control frames; the record
is lost only if that call fails. -/
theorem finish_open {w : RecordWriter ν} (hsmall : w.tooSmall = false) (hrecord : w.record = none)
    (hroom : w.room = maxRecord)
    (hcall : w.conn.writev closingCall = (answer, conn)) :
    (∃ kind, answer.result = .failed kind ∧ ∃ w', RecordWriter.finish w = .error (.failed kind) w') ∨
    (∀ kind, answer.result ≠ .failed kind) ∧
      ∃ bytes w', RecordWriter.finish w = .ok bytes w' ∧ w'.conn = conn := by
  have hopen : ¬(w.tooSmall || w.record.isSome) = true := by simp [hsmall, hrecord]
  have hcall' : w.conn.writev (RecordWriter.submission w.room controlOnly) = (answer, conn) := by
    rw [hroom]
    exact hcall
  have hpush := RecordWriter.pushVectored_open hopen hcall'
  have hfinish : RecordWriter.finish w = (do
      let _ ← RecordWriter.pushVectored controlOnly
      let w ← get
      pure (w.record.getD []) : WriterM ν Bytes) w := by
    rw [RecordWriter.finish, bind_ok get_apply]
    simp only [hsmall, hrecord, Option.isNone_none, if_true, Bool.false_eq_true, if_false]
  rw [hfinish, bind_apply, hpush]
  obtain ⟨result, pdatalen⟩ := answer
  cases result with
  | failed kind => exact .inl ⟨kind, rfl, _, rfl⟩
  | record bytes => exact .inr ⟨by simp, _, _, rfl, rfl⟩
  | writeMore => exact .inr ⟨by simp, _, _, rfl, rfl⟩
  | streamDataBlocked => exact .inr ⟨by simp, _, _, rfl, rfl⟩
  | streamShutWr => exact .inr ⟨by simp, _, _, rfl, rfl⟩

theorem packVectored_finOnly (hrest : rest f = [])
    {conn₁ conn₂ : Conn ν} {closing : WritevAnswer}
    (hcall : conn.writev (finOnly stream) = (answer, conn₁))
    (hclose : conn₁.writev closingCall = (closing, conn₂)) :
    let taken := answer.pdatalen.getD 0
    match answer.result with
    | .record bytes => packVectored (some stream) f true maxRecord conn =
        .ok (⟨taken, bytes, .packed⟩, f.advance taken) conn₁
    | .writeMore =>
      (∃ kind, closing.result = .failed kind ∧
        ∃ e conn', packVectored (some stream) f true maxRecord conn = .error e conn') ∨
      (∀ kind, closing.result ≠ .failed kind) ∧
        ∃ bytes, packVectored (some stream) f true maxRecord conn =
          .ok (⟨taken, bytes, .packed⟩, f.advance taken) conn₂
    | _ => (∃ e conn', packVectored (some stream) f true maxRecord conn = .error e conn') ∨
        ∃ bytes verdict f' conn', verdict ≠ .packed ∧
          packVectored (some stream) f true maxRecord conn = .ok (⟨0, bytes, verdict⟩, f') conn' := by
  have hremaining : f.remaining + 1 = 1 := by rw [remaining_eq, hrest]; rfl
  have hloop := packLoop_finOnly hrest hcall
  -- whatever refusal the loop ended with, the record is finished behind it
  have hrefused {verdict : Verdict} {w : RecordWriter ν} (hverdict : verdict ≠ .packed)
      (hrun : packLoop (some stream) true 1 f 0 (RecordWriter.new conn maxRecord) =
        .ok (0, verdict, f) w) :
      (∃ e conn', packVectored (some stream) f true maxRecord conn = .error e conn') ∨
        ∃ bytes verdict f' conn', verdict ≠ .packed ∧
          packVectored (some stream) f true maxRecord conn = .ok (⟨0, bytes, verdict⟩, f') conn' := by
    rw [packVectored, Conn.record, hremaining, bind_ok hrun]
    dsimp only
    cases hfinish : RecordWriter.finish w with
    | ok bytes w' =>
      rw [bind_ok hfinish]
      exact .inr ⟨bytes, verdict, f, w'.conn, hverdict, rfl⟩
    | error e w' =>
      rw [bind_error hfinish]
      cases e <;> exact .inl ⟨_, _, rfl⟩
  obtain ⟨result, pdatalen⟩ := answer
  cases result with
  | record bytes =>
    dsimp only at hloop ⊢
    rw [packVectored, Conn.record, hremaining, bind_ok hloop]
    rfl
  | writeMore =>
    dsimp only at hloop ⊢
    rw [packVectored, Conn.record, hremaining, bind_ok hloop]
    rcases finish_open (w := { RecordWriter.new conn maxRecord with conn := conn₁, started := true })
      rfl rfl rfl hclose with ⟨kind, hkind, w, hfinish⟩ | ⟨hkind, bytes, w, hfinish, rfl⟩
    · dsimp only at hfinish ⊢
      rw [bind_error hfinish]
      exact .inl ⟨kind, hkind, _, _, rfl⟩
    · dsimp only at hfinish ⊢
      rw [bind_ok hfinish]
      exact .inr ⟨hkind, bytes, rfl⟩
  | streamDataBlocked => exact hrefused (by decide) hloop
  | streamShutWr => exact hrefused (by decide) hloop
  | failed kind =>
    dsimp only at hloop ⊢
    by_cases hkind : kind = .stream
    · rw [if_pos hkind] at hloop
      exact hrefused (by decide) hloop
    · rw [if_neg hkind] at hloop
      rw [packVectored, Conn.record, hremaining, bind_error hloop]
      exact .inl ⟨_, _, rfl⟩

theorem roomFor_first (o : OutboundBuffer) (remaining : ℕ) :
    o.roomFor remaining false = if o.filled + maxRecord ≤ outboundCeiling then some maxRecord else none := by
  have h : maxRecord ≤ outboundCeiling - o.filled ↔ o.filled + maxRecord ≤ outboundCeiling := by
    simp only [maxRecord, maxRecordSize, outboundCeiling, outboundCarry]
    omega
  simp only [OutboundBuffer.roomFor, h, Bool.false_and, Bool.false_eq_true, if_false]

variable {c : Connection β ν}

omit [Dwnx ν] in
theorem serialise_ok {build : ℕ → Program CoreErrorKind (Conn ν) (Produced × Fragments)}
    {r : Produced × Fragments}
    (h : build maxRecord c.conn = .ok r conn) :
    ∃ c', serialise maxRecord build c = .ok r c' ∧ c'.conn = conn := by
  rw [serialise_apply, Nat.min_self, h]
  exact ⟨_, rfl, rfl⟩

omit [Dwnx ν] in
theorem serialise_error {build : ℕ → Program CoreErrorKind (Conn ν) (Produced × Fragments)}
    {e : Halt CoreErrorKind}
    (h : build maxRecord c.conn = .error e conn) :
    ∃ e' c', serialise maxRecord build c = .error e' c' := by
  rw [serialise_apply, Nat.min_self, h]
  cases e <;> exact ⟨_, _, rfl⟩

variable {slices : List Bytes}

theorem tryWriteStreamVectored_finOnly
    (hempty : slices.flatten = []) (hterminal : c.terminal = none)
    (hroom : c.out.filled + maxRecord ≤ outboundCeiling) :
    tryWriteStreamVectored stream slices true c =
      (do
        let (produced, fragments) ←
          serialise maxRecord (packVectored (some stream) (Fragments.new slices) true)
        let taken := 0 + produced.consumed
        match produced.verdict with
        | .closed => pure (acceptedOr taken .closed)
        | .blocked => pure (acceptedOr taken .blocked)
        | .packed =>
          if taken = 0 then pure (.accepted taken)
          else if produced.consumed = 0 then pure (acceptedOr taken .blocked)
          else tryWriteLoop stream true 0 0 fragments taken : ConnectionM β ν StreamWrite) c := by
  have hremaining : (Fragments.new slices).remaining = 0 := by
    rw [remaining_eq, rest_new, hempty]
    rfl
  have hfirst : c.out.roomFor (0 - 0) (decide (0 < 0)) = some maxRecord := by
    rw [show decide (0 < 0) = false from rfl, roomFor_first, if_pos hroom]
  simp only [tryWriteStreamVectored, bind_ok (checkTerminal_open hterminal), hremaining]
  rw [tryWriteLoop]
  simp only [bind_ok get_apply, hfirst]
  all_goals rfl

theorem tryWriteStreamVectored_finOnly_ok
    {bytes : Bytes} {verdict : Verdict}
    (hempty : slices.flatten = []) (hterminal : c.terminal = none)
    (hroom : c.out.filled + maxRecord ≤ outboundCeiling)
    (hpack : packVectored (some stream) (Fragments.new slices) true maxRecord c.conn =
      .ok (⟨0, bytes, verdict⟩, f) conn) :
    ∃ result c', tryWriteStreamVectored stream slices true c = .ok result c' ∧ c'.conn = conn ∧
      (result = .accepted 0 ↔ verdict = .packed) := by
  obtain ⟨c', hserialise, hconn⟩ := serialise_ok hpack
  rw [tryWriteStreamVectored_finOnly hempty hterminal hroom, bind_ok hserialise]
  cases verdict with
  | closed => exact ⟨_, _, rfl, hconn, by simp [acceptedOr]⟩
  | blocked => exact ⟨_, _, rfl, hconn, by simp [acceptedOr]⟩
  | packed => exact ⟨_, _, rfl, hconn, by simp⟩

theorem tryWriteStreamVectored_finOnly_error
    {e : Halt CoreErrorKind}
    (hempty : slices.flatten = []) (hterminal : c.terminal = none)
    (hroom : c.out.filled + maxRecord ≤ outboundCeiling)
    (hpack : packVectored (some stream) (Fragments.new slices) true maxRecord c.conn = .error e conn) :
    ∃ e' c', tryWriteStreamVectored stream slices true c = .error e' c' := by
  obtain ⟨e', c', hserialise⟩ := serialise_error hpack
  rw [tryWriteStreamVectored_finOnly hempty hterminal hroom, bind_error hserialise]
  exact ⟨e', c', rfl⟩

/-- The marker that is lost: it is all that is offered, the connection is open and has room for
a record, dwnx packs other frames and none of the stream's, and the record is finished. -/
def MarkerLost (stream : StreamId) (offer : Bytes) (c : Connection β ν) : Prop :=
  offer = [] ∧ c.terminal = none ∧ c.out.filled + maxRecord ≤ outboundCeiling ∧
    let first := Dwnx.writev (finOnly stream) c.conn.raw
    first.1.answer.pdatalen = none ∧
      ((∃ bytes, first.1.answer.result = .record bytes) ∨
        first.1.answer.result = .writeMore ∧
          ∀ kind, (Dwnx.writev closingCall first.2).1.answer.result ≠ .failed kind)

/-- What a write that ends a stream promises: the marker is submitted only with everything that
is left, and a write that accepts the whole offer has seen it serialised. -/
def FinHonest (write : ConnectionM β ν StreamWrite) (offer : Bytes) (c : Connection β ν) : Prop :=
  ∀ calls, (outcome write c).2.conn.calls = c.conn.calls ++ calls →
    FinOnTheRest offer calls ∧
    ((outcome write c).1 = .ok (.accepted offer.length) → FinSerialised calls)

variable [LawfulDwnx ν]

theorem finOnTheRest_call (stream : StreamId) (slices : List Bytes) (c : Connection β ν)
    (calls : List NativeCall)
    (h : (outcome (tryWriteStreamVectored stream slices true) c).2.conn.calls =
      c.conn.calls ++ calls) : FinOnTheRest slices.flatten calls := by
  have hcall := tryWriteStreamVectored_ensures stream slices true c
  unfold Ensures at hcall
  unfold outcome at h
  split at hcall
  · rename_i result c' hrun
    rw [hrun] at h
    obtain ⟨calls', left, hcalls, hpacks, -⟩ := hcall
    obtain rfl : calls' = calls := List.append_cancel_left (hcalls.symm.trans h)
    exact hpacks.finOnTheRest
  · rename_i e c' hrun
    rw [hrun] at h
    obtain ⟨-, -, calls', left, hcalls, hpacks⟩ := hcall
    obtain rfl : calls' = calls := List.append_cancel_left (hcalls.symm.trans h)
    exact hpacks.finOnTheRest

theorem finSerialised_call
    (hne : slices.flatten ≠ []) {calls : List NativeCall}
    (h : (outcome (tryWriteStreamVectored stream slices true) c).2.conn.calls =
      c.conn.calls ++ calls)
    (hall : (outcome (tryWriteStreamVectored stream slices true) c).1 =
      .ok (.accepted slices.flatten.length)) : FinSerialised calls := by
  have hcall := tryWriteStreamVectored_ensures stream slices true c
  unfold Ensures at hcall
  unfold outcome at h hall
  split at hcall
  · rename_i result c' hrun
    rw [hrun] at h hall
    obtain ⟨calls', left, hcalls, hpacks, hresult⟩ := hcall
    obtain rfl : calls' = calls := List.append_cancel_left (hcalls.symm.trans h)
    obtain rfl : result = .accepted slices.flatten.length := by simpa using hall
    obtain ⟨heq, hlen⟩ := hpacks.rest_eq
    have hleft : left = [] := by
      have hlength := congrArg List.length heq
      have htaken := hresult.reported
      rw [List.length_append, hlen] at hlength
      simp only [reported] at htaken
      exact List.eq_nil_of_length_eq_zero (by omega)
    exact hpacks.finSerialised hne hleft
  · rename_i e c' hrun
    rw [hrun] at hall
    simp at hall

omit [LawfulDwnx ν] in
theorem writev_twice (stream : StreamId) (conn : Conn ν) :
    ∃ conn₁ conn₂, conn.writev (finOnly stream) =
        ((Dwnx.writev (finOnly stream) conn.raw).1.answer, conn₁) ∧
      conn₁.writev closingCall = ((Dwnx.writev closingCall
        (Dwnx.writev (finOnly stream) conn.raw).2).1.answer, conn₂) ∧
      conn₁.calls = conn.calls ++ [.writev (finOnly stream)
        (Dwnx.writev (finOnly stream) conn.raw).1.answer] ∧
      conn₂.calls = conn₁.calls ++ [.writev closingCall (Dwnx.writev closingCall
        (Dwnx.writev (finOnly stream) conn.raw).2).1.answer] := by
  obtain ⟨signals, h₁⟩ := Conn.withBridge_eq (Dwnx.writev (finOnly stream)) (.writev (finOnly stream)) conn
  obtain ⟨signals', h₂⟩ := Conn.withBridge_eq (Dwnx.writev closingCall) (.writev closingCall)
    (conn.writev (finOnly stream)).2
  have hraw : (conn.writev (finOnly stream)).2.raw = (Dwnx.writev (finOnly stream) conn.raw).2 := by
    rw [Conn.writev, h₁]
  rw [hraw] at h₂
  refine ⟨(conn.writev (finOnly stream)).2, _, Prod.ext ?_ rfl, h₂, ?_, rfl⟩
  · rw [Conn.writev, h₁]
  · rw [Conn.writev, h₁]

omit [LawfulDwnx ν] in
theorem accepted_finOnly
    (hempty : slices.flatten = [])
    (hall : (outcome (tryWriteStreamVectored stream slices true) c).1 = .ok (.accepted 0)) :
    c.terminal = none ∧ c.out.filled + maxRecord ≤ outboundCeiling := by
  have hterminal : c.terminal = none := by
    by_contra hsome
    obtain ⟨error, herror⟩ := Option.ne_none_iff_exists'.mp hsome
    rw [outcome, tryWriteStreamVectored, bind_error (checkTerminal_ended herror)] at hall
    simp at hall
  refine ⟨hterminal, ?_⟩
  by_contra hfull
  have hremaining : (Fragments.new slices).remaining = 0 := by
    rw [remaining_eq, rest_new, hempty]
    rfl
  have hfirst : c.out.roomFor (0 - 0) (decide (0 < 0)) = none := by
    rw [show decide (0 < 0) = false from rfl, roomFor_first, if_neg hfull]
  rw [outcome, tryWriteStreamVectored, bind_ok (checkTerminal_open hterminal), hremaining,
    tryWriteLoop, bind_ok get_apply, hfirst] at hall
  simp [pure_apply, acceptedOr] at hall

theorem finHonest_vectored (stream : StreamId) (slices : List Bytes) (c : Connection β ν) :
    FinHonest (tryWriteStreamVectored stream slices true) slices.flatten c ↔
      ¬MarkerLost stream slices.flatten c := by
  obtain ⟨conn₁, conn₂, hcall, hclose, hcalls₁, hcalls₂⟩ := writev_twice stream c.conn
  generalize hfirst : (Dwnx.writev (finOnly stream) c.conn.raw).1.answer = answer at hcall hcalls₁
  generalize hsecond : (Dwnx.writev closingCall
    (Dwnx.writev (finOnly stream) c.conn.raw).2).1.answer = closing at hclose hcalls₂
  have hpack (hempty : slices.flatten = []) := packVectored_finOnly
    ((rest_new slices).trans hempty) hcall hclose
  constructor
  · rintro hhonest ⟨hempty, hterminal, hroom, hnone, hrecord⟩
    replace hpack := hpack hempty
    rw [hfirst] at hnone hrecord
    rw [hsecond] at hrecord
    -- the call accepts the marker, and no call that carried it was answered with a count
    have hlost {conn : Conn ν} {bytes : Bytes} {f : Fragments} {calls : List NativeCall}
        (hrun : packVectored (some stream) (Fragments.new slices) true maxRecord c.conn =
          .ok (⟨0, bytes, .packed⟩, f) conn) (hcalls : conn.calls = c.conn.calls ++ calls)
        (hnever : ∀ call answer, .writev call answer ∈ calls → call.fin = true →
          answer.taken = none) : False := by
      obtain ⟨result, c', hwrite, hconn, hresult⟩ :=
        tryWriteStreamVectored_finOnly_ok hempty hterminal hroom hrun
      obtain ⟨-, hmarked⟩ := hhonest calls (by rw [outcome, hwrite, ← hcalls, ← hconn])
      obtain ⟨call, hmem, hfin⟩ := hmarked (by
        rw [outcome, hwrite, hempty, hresult.mpr rfl]
        rfl)
      cases call with
      | writev call answer =>
        obtain ⟨hcall, hsome⟩ := Bool.and_eq_true_iff.mp hfin
        simp [hnever call answer hmem hcall] at hsome
      | _ => simp [serialisedFin] at hfin
    rcases hrecord with ⟨bytes, hbytes⟩ | ⟨hmore, hnotFailed⟩
    · rw [hbytes] at hpack
      simp only [hnone, Option.getD_none] at hpack
      refine hlost hpack hcalls₁ ?_
      intro call answer' hmem _
      obtain ⟨-, rfl⟩ : call = finOnly stream ∧ answer' = answer := by simpa using hmem
      simp [WritevAnswer.taken, hbytes, hnone]
    · rw [hmore] at hpack
      simp only [hnone, Option.getD_none] at hpack
      obtain ⟨kind, hkind, -⟩ | ⟨-, bytes, hrun⟩ := hpack
      · exact hnotFailed kind hkind
      refine hlost hrun (by rw [hcalls₂, hcalls₁, List.append_assoc]) ?_
      intro call answer' hmem hfin
      rcases List.mem_append.mp hmem with hmem | hmem
      · obtain ⟨-, rfl⟩ : call = finOnly stream ∧ answer' = answer := by simpa using hmem
        simp [WritevAnswer.taken, hmore, hnone]
      · obtain ⟨rfl, -⟩ : call = closingCall ∧ answer' = closing := by simpa using hmem
        simp [closingCall] at hfin
  · intro hnot calls h
    refine ⟨finOnTheRest_call stream slices c calls h, fun hall => ?_⟩
    by_cases hempty : slices.flatten = []
    swap
    · exact finSerialised_call hempty h hall
    rw [hempty] at hall
    obtain ⟨hterminal, hroom⟩ := accepted_finOnly hempty hall
    replace hpack := hpack hempty
    -- a production that failed or was refused would not have been accepted
    have herror {e : Halt CoreErrorKind} {conn : Conn ν}
        (hrun : packVectored (some stream) (Fragments.new slices) true maxRecord c.conn =
          .error e conn) : False := by
      obtain ⟨e', c', hwrite⟩ := tryWriteStreamVectored_finOnly_error hempty hterminal hroom hrun
      rw [outcome, hwrite] at hall
      simp at hall
    have hrefused {conn : Conn ν} {bytes : Bytes} {verdict : Verdict} {f : Fragments}
        (hverdict : verdict ≠ .packed)
        (hrun : packVectored (some stream) (Fragments.new slices) true maxRecord c.conn =
          .ok (⟨0, bytes, verdict⟩, f) conn) : False := by
      obtain ⟨result, c', hwrite, -, hresult⟩ :=
        tryWriteStreamVectored_finOnly_ok hempty hterminal hroom hrun
      rw [outcome, hwrite] at hall
      exact hverdict (hresult.mp (by simpa using hall))
    -- a production that was accepted made the call with the marker
    have hmade {conn : Conn ν} {bytes : Bytes} {f : Fragments}
        (hrun : packVectored (some stream) (Fragments.new slices) true maxRecord c.conn =
          .ok (⟨answer.pdatalen.getD 0, bytes, .packed⟩, f) conn)
        (hmem : .writev (finOnly stream) answer ∈ conn.calls.drop c.conn.calls.length)
        (hsome : answer.taken = answer.pdatalen) (hpdatalen : answer.pdatalen.isSome) :
        FinSerialised calls := by
      have hzero : answer.pdatalen.getD 0 = 0 := by
        obtain ⟨n, hn⟩ := Option.isSome_iff_exists.mp hpdatalen
        have hle := LawfulDwnx.takes_le (finOnly stream) c.conn.raw n (by rw [hfirst, hsome, hn])
        rw [hn, Option.getD_some]
        simpa [finOnly] using hle
      rw [hzero] at hrun
      obtain ⟨result, c', hwrite, hconn, -⟩ :=
        tryWriteStreamVectored_finOnly_ok hempty hterminal hroom hrun
      rw [outcome, hwrite] at h
      dsimp only at h
      rw [← hconn, h, List.drop_left] at hmem
      exact ⟨_, hmem, by simpa [serialisedFin, finOnly, hsome] using hpdatalen⟩
    cases hresult : answer.result with
    | record bytes =>
      rw [hresult] at hpack
      have hsome : answer.taken = answer.pdatalen := by simp [WritevAnswer.taken, hresult]
      have hpdatalen : answer.pdatalen.isSome := by
        by_contra hnone
        exact hnot ⟨hempty, hterminal, hroom, by simpa [hfirst] using hnone,
          .inl ⟨bytes, by rw [hfirst, hresult]⟩⟩
      exact hmade hpack (by simp [hcalls₁]) hsome hpdatalen
    | writeMore =>
      rw [hresult] at hpack
      have hsome : answer.taken = answer.pdatalen := by simp [WritevAnswer.taken, hresult]
      obtain ⟨kind, hkind, e, conn', hrun⟩ | ⟨hclosed, bytes, hrun⟩ := hpack
      · exact (herror hrun).elim
      · have hpdatalen : answer.pdatalen.isSome := by
          by_contra hnone
          exact hnot ⟨hempty, hterminal, hroom, by simpa [hfirst] using hnone,
            .inr ⟨by rw [hfirst, hresult], by rw [hsecond]; exact hclosed⟩⟩
        exact hmade hrun (by simp [hcalls₂, hcalls₁]) hsome hpdatalen
    | streamDataBlocked =>
      rw [hresult] at hpack
      rcases hpack with ⟨e, conn, hrun⟩ | ⟨bytes, verdict, f, conn, hverdict, hrun⟩
      · exact (herror hrun).elim
      · exact (hrefused hverdict hrun).elim
    | streamShutWr =>
      rw [hresult] at hpack
      rcases hpack with ⟨e, conn, hrun⟩ | ⟨bytes, verdict, f, conn, hverdict, hrun⟩
      · exact (herror hrun).elim
      · exact (hrefused hverdict hrun).elim
    | failed kind =>
      rw [hresult] at hpack
      rcases hpack with ⟨e, conn, hrun⟩ | ⟨bytes, verdict, f, conn, hverdict, hrun⟩
      · exact (herror hrun).elim
      · exact (hrefused hverdict hrun).elim

/-- A stream's end is never claimed without being sent, and never sent early, except where the
marker is all that was offered and the record carried something else. -/
theorem finHonest_iff (stream : StreamId) (c : Connection β ν) :
    (∀ slices : List Bytes, FinHonest (tryWriteStreamVectored stream slices true) slices.flatten c ↔
      ¬MarkerLost stream slices.flatten c) ∧
    ∀ data : Bytes, FinHonest (tryWriteStream stream data true) data c ↔
      ¬MarkerLost stream data c := by
  refine ⟨fun slices => finHonest_vectored stream slices c, fun data => ?_⟩
  have h := finHonest_vectored stream [data] c
  rwa [List.flatten_singleton] at h

end Marker

/-! ## Concrete calls -/

/-- One byte is taken, and then the record cannot be serialised. -/
def failingWriter : ScriptedDwnx where
  writevs := [⟨.writeMore, some 1⟩, ⟨.failed .memory, none⟩]

/-- Two records for one offer: the first stops inside the second fragment. -/
def sharingWriter : ScriptedDwnx where
  writevs := [⟨.writeMore, some 1⟩, ⟨.record [9, 9], some 1⟩, ⟨.record [9], some 2⟩]

/-- The record carries other frames, and dwnx says so: no byte of the stream, not even none. -/
def controlWriter : ScriptedDwnx where
  writevs := [⟨.writeMore, none⟩]

/-- An end of stream that is accepted and was never sent. -/
theorem tryWriteStream_loses_fin :
    let c : Connection ScriptedStream ScriptedDwnx := .new {} controlWriter .client 0
    let run := outcome (tryWriteStream ⟨0, by decide⟩ [] true) c
    run.1 = .ok (.accepted 0) ∧ ¬FinSerialised run.2.conn.calls ∧
      ¬FinHonest (tryWriteStream ⟨0, by decide⟩ [] true) [] c := by
  refine ⟨by decide, by decide, ?_⟩
  intro hhonest
  exact absurd ((hhonest _ (List.nil_append _).symm).2 (by decide)) (by decide)

/-- The same offer where the first record takes the marker. -/
theorem finHonest_iff_marker_taken :
    FinHonest (tryWriteStream ⟨0, by decide⟩ [] true) []
      (.new {} { writevs := [⟨.record [9], some 0⟩] } .client 0 :
        Connection ScriptedStream ScriptedDwnx) := by
  refine ((finHonest_iff _ _).2 []).mpr ?_
  rintro ⟨-, -, -, hnone, -⟩
  exact absurd hnone (by decide)

end Ngnet.QmuxVectoredWrites
