import Ngnet.QmuxCloseCodec

/-!
# What the close decoder accepts

The walk of `decode_close_frame` against the frames of a record, stated without the walk:
`FramesBefore` lists complete frames, `CloseBody` is the body of a close. A reader of the
walk is sound when what it steps over is a frame, and complete when it steps over every
frame; the second half was shown beside the codec.

The source keeps a cursor and slices the payload at it. `Cursor` repeats the walk that way,
with a slice out of range and a loop without an end as faults of their own.
-/

namespace Ngnet.QmuxCloseCodec
open QmuxVarints

/-! ## The grammar -/

/-- A complete frame and what follows it in the payload. Without the length bit the data of
a STREAM frame runs to the end, so nothing follows. -/
inductive FrameBefore : Bytes → Bytes → Prop
  | complete {frame tail : Bytes} (whole : CompleteFrame frame) : FrameBefore frame tail
  | toTheEnd {frameType : ℕ} {type id offset data : Bytes}
      (head : readVarint type = some (frameType, type.length)) (stream : IsStreamType frameType)
      (unsized : frameType &&& streamLenBit = 0) (hid : Varints 1 id)
      (hoffset : Varints (if frameType &&& streamOffBit ≠ 0 then 1 else 0) offset) :
      FrameBefore (type ++ (id ++ offset ++ data)) []

inductive FramesBefore : List Bytes → Bytes → Prop
  | nil {tail : Bytes} : FramesBefore [] tail
  | cons {frame tail : Bytes} {frames : List Bytes}
      (head : FrameBefore frame (frames.flatten ++ tail)) (rest : FramesBefore frames tail) :
      FramesBefore (frame :: frames) tail

/-- The body of a close of the given type, complete up to its reason, and the close it
carries. -/
inductive CloseBody : ℕ → Bytes → CloseReason → Prop
  | transport {code trigger length reason : Bytes} {errorCode frameType : ℕ}
      (hcode : readVarint code = some (errorCode, code.length))
      (htrigger : readVarint trigger = some (frameType, trigger.length))
      (hlength : readVarint length = some (reason.length, length.length)) :
      CloseBody frameConnectionClose (code ++ (trigger ++ (length ++ reason)))
        ⟨.transport, errorCode, frameType, reason⟩
  | application {code length reason : Bytes} {errorCode : ℕ}
      (hcode : readVarint code = some (errorCode, code.length))
      (hlength : readVarint length = some (reason.length, length.length)) :
      CloseBody frameConnectionCloseApp (code ++ (length ++ reason))
        ⟨.application, errorCode, 0, reason⟩

/-- A close and whatever stands behind it. -/
inductive ClosesWith : Bytes → CloseReason → Prop
  | mk {frameType : ℕ} {type fields rest : Bytes} {close : CloseReason}
      (head : readVarint type = some (frameType, type.length))
      (body : CloseBody frameType fields close) : ClosesWith (type ++ (fields ++ rest)) close

/-- Bytes that begin with neither a frame nor a close: an unknown type, or fields cut off. -/
def Unreadable (tail : Bytes) : Prop :=
  (∀ frame rest, tail = frame ++ rest → ¬FrameBefore frame rest) ∧ ∀ close, ¬ClosesWith tail close

/-! ## The walk steps over frames only -/

theorem readVarint_split {input : Bytes} {value width : ℕ}
    (h : readVarint input = some (value, width)) :
    ∃ encoding rest, input = encoding ++ rest ∧ encoding.length = width ∧
      readVarint encoding = some (value, encoding.length) := by
  have hwidth := readVarint_width h
  have hlen : (input.take width).length = width := by simp; omega
  refine ⟨input.take width, input.drop width, (List.take_append_drop width input).symm, hlen, ?_⟩
  rw [readVarint_take h, hlen]

variable {n : ℕ} {fields : Bytes}

theorem skipVarints_split {count : ℕ} (h : skipVarints count fields = some n) :
    ∃ body rest, fields = body ++ rest ∧ body.length = n ∧ Varints count body := by
  induction count generalizing fields n with
  | zero =>
    simp only [skipVarints, Option.some.injEq] at h
    exact ⟨[], fields, rfl, h, .nil⟩
  | succ count ih =>
    simp only [skipVarints, Option.bind_eq_bind, Option.bind_eq_some_iff, Prod.exists,
      Option.some.injEq] at h
    obtain ⟨value, read, hread, more, hmore, rfl⟩ := h
    obtain ⟨encoding, rest, rfl, rfl, hencoding⟩ := readVarint_split hread
    rw [List.drop_left] at hmore
    obtain ⟨body, tail, rfl, rfl, hbody⟩ := ih hmore
    exact ⟨encoding ++ body, tail, by simp, by simp, .cons hencoding hbody⟩

theorem skipSized_split (h : skipSized fields = some n) :
    ∃ body rest, fields = body ++ rest ∧ body.length = n ∧ Sized body := by
  simp only [skipSized, Option.bind_eq_bind, Option.bind_eq_some_iff, Prod.exists,
    Option.ite_none_right_eq_some, Option.some.injEq] at h
  obtain ⟨len, read, hread, hfits, rfl⟩ := h
  obtain ⟨length, rest, rfl, rfl, hlength⟩ := readVarint_split hread
  have hlen : (rest.take len).length = len := by simp at hfits ⊢; omega
  refine ⟨length ++ rest.take len, rest.drop len, by simp, by simp [hlen], .mk ?_⟩
  rw [hlen]
  exact hlength

variable {frameType : ℕ}

theorem skipOffset_split
    (h : skipOffset frameType fields = some n) :
    ∃ offset rest, fields = offset ++ rest ∧ offset.length = n ∧
      Varints (if frameType &&& streamOffBit ≠ 0 then 1 else 0) offset := by
  rw [skipOffset] at h
  split at h
  · rename_i hbit
    rw [if_pos hbit]
    exact skipVarints_split h
  · rename_i hbit
    rw [if_neg hbit]
    simp only [Option.some.injEq] at h
    exact ⟨[], fields, rfl, h, .nil⟩

theorem skipFrame_split (h : skipFrame frameType fields = some n) :
    (∃ body rest, fields = body ++ rest ∧ body.length = n ∧ FrameBody frameType body) ∨
      (n = fields.length ∧ IsStreamType frameType ∧ frameType &&& streamLenBit = 0 ∧
        ∃ id offset data, fields = id ++ offset ++ data ∧ Varints 1 id ∧
          Varints (if frameType &&& streamOffBit ≠ 0 then 1 else 0) offset) := by
  rw [skipFrame] at h
  split at h
  · rename_i htype
    subst htype
    simp only [Option.some.injEq] at h
    exact .inl ⟨[], fields, rfl, h, .padding⟩
  split at h
  · rename_i hone
    obtain ⟨body, rest, hfields, hlen, hbody⟩ := skipVarints_split h
    exact .inl ⟨body, rest, hfields, hlen, .one hone hbody⟩
  split at h
  · rename_i htwo
    obtain ⟨body, rest, hfields, hlen, hbody⟩ := skipVarints_split h
    exact .inl ⟨body, rest, hfields, hlen, .two htwo hbody⟩
  split at h
  · rename_i htype
    subst htype
    obtain ⟨body, rest, hfields, hlen, hbody⟩ := skipVarints_split h
    exact .inl ⟨body, rest, hfields, hlen, .three hbody⟩
  split at h
  · rename_i htype
    subst htype
    obtain ⟨body, rest, hfields, hlen, hbody⟩ := skipSized_split h
    exact .inl ⟨body, rest, hfields, hlen, .parameters hbody⟩
  split at h
  · rename_i hstream
    simp only [Option.bind_eq_bind, Option.bind_eq_some_iff] at h
    obtain ⟨at₁, hid, at₂, hoffset, h⟩ := h
    obtain ⟨id, rest₁, rfl, rfl, hid'⟩ := skipVarints_split hid
    rw [List.drop_left] at hoffset
    obtain ⟨offset, rest₂, rfl, rfl, hoffset'⟩ := skipOffset_split hoffset
    split at h
    · rename_i hunsized
      simp only [Option.some.injEq] at h
      exact .inr ⟨h.symm, hstream, hunsized, id, offset, rest₂, by simp, hid', hoffset'⟩
    · rename_i hsized
      simp only [Option.bind_eq_some_iff, Option.some.injEq] at h
      obtain ⟨at₃, hdata, rfl⟩ := h
      rw [← List.append_assoc, ← List.length_append, List.drop_left] at hdata
      obtain ⟨data, rest, rfl, rfl, hdata'⟩ := skipSized_split hdata
      exact .inl ⟨id ++ offset ++ data, rest, by simp, by simp [Nat.add_assoc],
        .stream hstream hsized hid' hoffset' hdata'⟩
  · simp at h

theorem skipFrame_le (h : skipFrame frameType fields = some n) :
    n ≤ fields.length := by
  rcases skipFrame_split h with ⟨body, rest, rfl, rfl, -⟩ | ⟨rfl, -⟩
  · simp
  · exact le_rfl

/-! ## A frame to the end of the payload -/

theorem IsStreamType.not_close (h : IsStreamType frameType) :
    ¬(frameType = frameConnectionClose ∨ frameType = frameConnectionCloseApp) := by
  rintro (rfl | rfl) <;> exact absurd h (by decide)

theorem skipOffset_varints {offset : Bytes}
    (h : Varints (if frameType &&& streamOffBit ≠ 0 then 1 else 0) offset) (rest : Bytes) :
    skipOffset frameType (offset ++ rest) = some offset.length := by
  rw [skipOffset]
  split at h
  · rename_i hbit
    rw [if_pos hbit]
    exact h.skip rest
  · rename_i hbit
    rw [if_neg hbit]
    cases h
    rfl

variable {tail : Bytes}

theorem FrameBefore.skip {frame : Bytes} (h : FrameBefore frame tail) :
    ∃ frameType type body, frame = type ++ body ∧
      readVarint type = some (frameType, type.length) ∧
      ¬(frameType = frameConnectionClose ∨ frameType = frameConnectionCloseApp) ∧
      skipFrame frameType (body ++ tail) = some body.length := by
  cases h with
  | complete whole =>
    obtain ⟨head, fields⟩ := whole
    exact ⟨_, _, _, rfl, head, fields.not_close, fields.skip tail⟩
  | @toTheEnd frameType type id offset data head stream unsized hid hoffset =>
    refine ⟨frameType, type, id ++ offset ++ data, rfl, head, stream.not_close, ?_⟩
    simp only [skipFrame_stream stream, List.append_assoc, hid.skip, Option.bind_eq_bind,
      Option.bind_some, List.drop_left, skipOffset_varints hoffset, unsized, if_true,
      List.append_nil]

theorem FrameBefore.decode {frame : Bytes} (h : FrameBefore frame tail) :
    decodeCloseFrame (frame ++ tail) = decodeCloseFrame tail := by
  obtain ⟨frameType, type, body, rfl, head, hclose, hskip⟩ := h.skip
  rw [List.append_assoc, decodeCloseFrame_eq (readVarint_append _ head) rfl, if_neg hclose]
  simp [hskip]

theorem FramesBefore.decode {frames : List Bytes} (h : FramesBefore frames tail) :
    decodeCloseFrame (frames.flatten ++ tail) = decodeCloseFrame tail := by
  induction h with
  | nil => rfl
  | cons head rest ih => rw [List.flatten_cons, List.append_assoc, head.decode, ih]

/-! ## The body of a close -/

variable {close : CloseReason}

theorem decodeFields_body
    (h : CloseBody frameType fields close) (rest : Bytes) :
    decodeFields frameType (fields ++ rest) = some close := by
  cases h with
  | transport hcode htrigger hlength =>
    simp only [decodeFields, triggeringFrame, List.append_assoc, readVarint_append _ hcode,
      Option.bind_eq_bind, Option.bind_some, List.drop_left, if_true, readVarint_append _ htrigger,
      readVarint_append _ hlength]
    rw [if_neg (by simp)]
    simp
  | application hcode hlength =>
    have hne : frameConnectionCloseApp ≠ frameConnectionClose := by decide
    simp only [decodeFields, triggeringFrame, List.append_assoc, readVarint_append _ hcode,
      Option.bind_eq_bind, Option.bind_some, List.drop_left, if_neg hne, List.drop_zero,
      readVarint_append _ hlength]
    rw [if_neg (by simp)]
    simp

theorem body_of_decodeFields
    (htype : frameType = frameConnectionClose ∨ frameType = frameConnectionCloseApp)
    (h : decodeFields frameType fields = some close) :
    ∃ body rest, fields = body ++ rest ∧ CloseBody frameType body close := by
  simp only [decodeFields, Option.bind_eq_bind, Option.bind_eq_some_iff, Prod.exists,
    Option.ite_none_left_eq_some, Option.some.injEq] at h
  obtain ⟨errorCode, read, hcode, triggering, read', htrigger, len, read'', hlength, hfits, rfl⟩ := h
  obtain ⟨code, rest₁, rfl, rfl, hcode'⟩ := readVarint_split hcode
  rw [List.drop_left] at htrigger hlength hfits
  rw [List.drop_left]
  rcases htype with rfl | rfl
  · rw [triggeringFrame, if_pos rfl] at htrigger
    obtain ⟨trigger, rest₂, rfl, rfl, htrigger'⟩ := readVarint_split htrigger
    rw [List.drop_left] at hlength hfits
    rw [List.drop_left]
    obtain ⟨length, rest₃, rfl, rfl, hlength'⟩ := readVarint_split hlength
    rw [List.drop_left] at hfits
    rw [List.drop_left, if_pos rfl]
    have hlen : (rest₃.take len).length = len := by simp; omega
    refine ⟨code ++ (trigger ++ (length ++ rest₃.take len)), rest₃.drop len, by simp,
      .transport hcode' htrigger' ?_⟩
    rw [hlen]
    exact hlength'
  · have hne : frameConnectionCloseApp ≠ frameConnectionClose := by decide
    rw [triggeringFrame, if_neg hne, Option.some.injEq, Prod.mk.injEq] at htrigger
    obtain ⟨rfl, rfl⟩ := htrigger
    rw [List.drop_zero] at hlength hfits
    rw [List.drop_zero]
    obtain ⟨length, rest₃, rfl, rfl, hlength'⟩ := readVarint_split hlength
    rw [List.drop_left] at hfits
    rw [List.drop_left, if_neg hne]
    have hlen : (rest₃.take len).length = len := by simp; omega
    refine ⟨code ++ (length ++ rest₃.take len), rest₃.drop len, by simp, .application hcode' ?_⟩
    rw [hlen]
    exact hlength'

theorem CloseBody.type
    (h : CloseBody frameType fields close) :
    frameType = frameConnectionClose ∨ frameType = frameConnectionCloseApp := by
  cases h with
  | transport => exact .inl rfl
  | application => exact .inr rfl

theorem ClosesWith.decode (h : ClosesWith tail close) :
    decodeCloseFrame tail = some close := by
  obtain ⟨head, body⟩ := h
  rw [decodeCloseFrame_eq (readVarint_append _ head) rfl, if_pos body.type, List.drop_left,
    decodeFields_body body]

/-! ## Accepted exactly -/

theorem decodeCloseFrame_split {payload : Bytes}
    (h : decodeCloseFrame payload = some close) :
    ClosesWith payload close ∨
      ∃ frame tail, payload = frame ++ tail ∧ 0 < frame.length ∧ FrameBefore frame tail ∧
        decodeCloseFrame tail = some close := by
  cases hread : readVarint payload with
  | none =>
    cases payload with
    | nil => exact absurd h (by simp [decodeCloseFrame, decodeFrames])
    | cons first rest => simp [decodeCloseFrame, decodeFrames, hread] at h
  | some p =>
    obtain ⟨frameType, width⟩ := p
    have hpos := (readVarint_width hread).1
    rw [decodeCloseFrame_eq hread rfl] at h
    obtain ⟨type, fields, rfl, rfl, head⟩ := readVarint_split hread
    rw [List.drop_left] at h
    split at h
    · rename_i htype
      obtain ⟨body, rest, rfl, hbody⟩ := body_of_decodeFields htype h
      exact .inl (.mk head hbody)
    · obtain ⟨skipped, hskip, h⟩ := Option.bind_eq_some_iff.1 h
      refine .inr ?_
      rcases skipFrame_split hskip with ⟨body, rest, rfl, rfl, hbody⟩ |
        ⟨rfl, hstream, hunsized, id, offset, data, rfl, hid, hoffset⟩
      · rw [List.drop_left] at h
        exact ⟨type ++ body, rest, by simp, by simp; omega, .complete (.mk head hbody), h⟩
      · -- nothing is left behind a frame that runs to the end
        rw [List.drop_length] at h
        exact absurd h (by simp [decodeCloseFrame, decodeFrames])

theorem frames_of_decode {payload : Bytes}
    (h : decodeCloseFrame payload = some close) :
    ∃ frames tail, payload = frames.flatten ++ tail ∧ FramesBefore frames tail ∧
      ClosesWith tail close := by
  generalize hsize : payload.length = size
  induction size using Nat.strong_induction_on generalizing payload with
  | _ size ih =>
    rcases decodeCloseFrame_split h with hclose | ⟨frame, tail, rfl, hpos, hframe, hrest⟩
    · exact ⟨[], payload, rfl, .nil, hclose⟩
    · have hshorter : tail.length < size := by
        rw [← hsize, List.length_append]
        omega
      obtain ⟨frames, last, rfl, hframes, hclose⟩ := ih _ hshorter hrest rfl
      exact ⟨frame :: frames, last, by simp, .cons hframe hframes, hclose⟩

theorem decodeCloseFrame_iff (payload : Bytes) (close : CloseReason) :
    decodeCloseFrame payload = some close ↔
      ∃ frames tail, payload = frames.flatten ++ tail ∧ FramesBefore frames tail ∧
        ClosesWith tail close := by
  constructor
  · exact frames_of_decode
  · rintro ⟨frames, tail, rfl, hframes, hclose⟩
    rw [hframes.decode, hclose.decode]

theorem Unreadable.decode (h : Unreadable tail) : decodeCloseFrame tail = none := by
  cases hdecode : decodeCloseFrame tail with
  | none => rfl
  | some close =>
    rcases decodeCloseFrame_split hdecode with hclose | ⟨frame, rest, hsplit, -, hframe, -⟩
    · exact absurd hclose (h.2 close)
    · exact absurd hframe (h.1 frame rest hsplit)

/-! ## The walk by cursor -/

namespace Cursor

/-- What the walk must not run into: a slice out of range, which panics, and a loop that
goes on for more turns than it was given. -/
inductive Fault | outOfRange | unfinished
  deriving DecidableEq, Repr

/-- A result that a `?` may have cut short, unless a fault came first. -/
abbrev Walk := OptionT (Except Fault)

/-- The operand of a `?`. -/
def found {α : Type} (result : Option α) : Walk α := OptionT.mk (.ok result)

/-- `&bytes[cursor..]`. -/
def sliceFrom (bytes : Bytes) (cursor : ℕ) : Walk Bytes :=
  if cursor ≤ bytes.length then pure (bytes.drop cursor)
  else OptionT.lift (throw .outOfRange)

/-- The frame-type field, which an application close does not have, and the cursor behind
it. -/
def triggeringFrame (frameType : ℕ) (fields : Bytes) (cursor : ℕ) : Walk (ℕ × ℕ) :=
  if frameType = frameConnectionClose then do
    let (value, read) ← found (readVarint (← sliceFrom fields cursor))
    pure (value, cursor + read)
  else pure (0, cursor)

def decodeFields (frameType : ℕ) (fields : Bytes) : Walk CloseReason := do
  let cursor := 0
  let (errorCode, read) ← found (readVarint (← sliceFrom fields cursor))
  let cursor := cursor + read
  let (triggering, cursor) ← triggeringFrame frameType fields cursor
  let (reasonLen, read) ← found (readVarint (← sliceFrom fields cursor))
  let cursor := cursor + read
  -- `fields.get(at..at.checked_add(reason_len)?)?`
  let reason ← found
    (if cursor + reasonLen ≤ fields.length then some ((fields.drop cursor).take reasonLen) else none)
  let kind := if frameType = frameConnectionClose then CloseKind.transport else .application
  pure ⟨kind, errorCode, triggering, reason⟩

def varints (fields : Bytes) : ℕ → ℕ → Walk ℕ
  | 0, cursor => pure cursor
  | count + 1, cursor => do
    let (_, read) ← found (readVarint (← sliceFrom fields cursor))
    varints fields count (cursor + read)

/-- The length at the cursor and the end of what it announces. -/
def sizedEnd (fields : Bytes) (cursor : ℕ) : Walk ℕ := do
  let (len, read) ← found (readVarint (← sliceFrom fields cursor))
  let cursor := cursor + read
  found (if cursor + len ≤ fields.length then some (cursor + len) else none)

/-- The cursor behind the offset field of a STREAM frame. -/
def offset (frameType : ℕ) (fields : Bytes) (cursor : ℕ) : Walk ℕ :=
  if frameType &&& streamOffBit ≠ 0 then varints fields 1 cursor else pure cursor

def skipFrame (frameType : ℕ) (fields : Bytes) : Walk ℕ :=
  if frameType = framePadding then pure 0
  else if frameType ∈ oneVarintFrames then varints fields 1 0
  else if frameType ∈ twoVarintFrames then varints fields 2 0
  else if frameType = frameResetStream then varints fields 3 0
  else if frameType = frameQxTransportParameters then sizedEnd fields 0
  else if IsStreamType frameType then do
    let cursor ← varints fields 1 0
    let cursor ← offset frameType fields cursor
    if frameType &&& streamLenBit = 0 then pure fields.length
    else sizedEnd fields cursor
  else found none

/-- The loop of `decode_close_frame`, for as many turns as it is given. -/
def decodeFrames (payload : Bytes) : ℕ → ℕ → Walk CloseReason
  | 0, _ => OptionT.lift (throw .unfinished)
  | turns + 1, cursor =>
    if payload.length ≤ cursor then found none
    else do
      let (frameType, read) ← found (readVarint (← sliceFrom payload cursor))
      let cursor := cursor + read
      if frameType = frameConnectionClose ∨ frameType = frameConnectionCloseApp then do
        decodeFields frameType (← sliceFrom payload cursor)
      else do
        let skipped ← skipFrame frameType (← sliceFrom payload cursor)
        decodeFrames payload turns (cursor + skipped)

def decodeCloseFrame (payload : Bytes) (turns : ℕ) : Walk CloseReason := decodeFrames payload turns 0

variable {α : Type}

@[simp] theorem pure_eq (a : α) : (pure a : Walk α) = found (some a) := rfl

@[simp] theorem found_none_bind {β : Type} (f : α → Walk β) : found none >>= f = found none := rfl

@[simp] theorem found_some_bind {β : Type} (a : α) (f : α → Walk β) : found (some a) >>= f = f a :=
  rfl

variable {cursor : ℕ}

theorem sliceFrom_of_le {bytes : Bytes} (h : cursor ≤ bytes.length) :
    sliceFrom bytes cursor = found (some (bytes.drop cursor)) := by
  rw [sliceFrom, if_pos h, pure_eq]

theorem drop_read {bytes : Bytes} {value read : ℕ}
    (h : readVarint (bytes.drop cursor) = some (value, read)) : cursor + read ≤ bytes.length := by
  have hwidth := readVarint_width h
  simp only [List.length_drop] at hwidth
  omega

variable {fields : Bytes}

theorem varints_eq (count : ℕ) (h : cursor ≤ fields.length) :
    varints fields count cursor =
      found ((skipVarints count (fields.drop cursor)).map (cursor + ·)) := by
  induction count generalizing cursor with
  | zero => rfl
  | succ count ih =>
    simp only [varints, sliceFrom_of_le h, found_some_bind, skipVarints]
    cases hread : readVarint (fields.drop cursor) with
    | none => rfl
    | some p =>
      simp only [found_some_bind, Option.bind_eq_bind, Option.bind_some]
      rw [ih (drop_read hread), ← List.drop_drop]
      cases skipVarints count ((fields.drop cursor).drop p.2) with
      | none => rfl
      | some more => simp [Nat.add_assoc]

theorem sizedEnd_eq (h : cursor ≤ fields.length) :
    sizedEnd fields cursor = found ((skipSized (fields.drop cursor)).map (cursor + ·)) := by
  simp only [sizedEnd, sliceFrom_of_le h, found_some_bind, skipSized]
  cases hread : readVarint (fields.drop cursor) with
  | none => rfl
  | some p =>
    have hfits : cursor + p.2 + p.1 ≤ fields.length ↔ p.2 + p.1 ≤ (fields.drop cursor).length := by
      rw [List.length_drop]
      omega
    simp only [found_some_bind, Option.bind_eq_bind, Option.bind_some, hfits]
    split
    · simp [Nat.add_assoc]
    · rfl

theorem skipVarints_drop_le {count n : ℕ} (h : cursor ≤ fields.length)
    (hskip : skipVarints count (fields.drop cursor) = some n) : cursor + n ≤ fields.length := by
  obtain ⟨body, rest, hfields, rfl, -⟩ := skipVarints_split hskip
  have hlen := congrArg List.length hfields
  simp only [List.length_drop, List.length_append] at hlen
  omega

theorem sizedEnd_zero (fields : Bytes) : sizedEnd fields 0 = found (skipSized fields) := by
  simp [sizedEnd_eq (Nat.zero_le fields.length)]

theorem varints_zero (fields : Bytes) (count : ℕ) :
    varints fields count 0 = found (skipVarints count fields) := by
  simp [varints_eq count (Nat.zero_le fields.length)]

variable {frameType : ℕ}

theorem offset_eq (h : cursor ≤ fields.length) :
    offset frameType fields cursor =
      found ((skipOffset frameType (fields.drop cursor)).map (cursor + ·)) := by
  rw [offset, skipOffset]
  split
  · rw [varints_eq 1 h]
  · simp

theorem skipFrame_eq (frameType : ℕ) (fields : Bytes) :
    skipFrame frameType fields = found (QmuxCloseCodec.skipFrame frameType fields) := by
  rw [skipFrame, QmuxCloseCodec.skipFrame]
  simp only [varints_zero, sizedEnd_zero]
  split
  · rfl
  split
  · rfl
  split
  · rfl
  split
  · rfl
  split
  · rfl
  split
  · cases hid : skipVarints 1 fields with
    | none => rfl
    | some at₁ =>
      have hle : 0 + at₁ ≤ fields.length := skipVarints_drop_le (Nat.zero_le _) hid
      rw [Nat.zero_add] at hle
      simp only [found_some_bind, offset_eq hle, Option.bind_eq_bind, Option.bind_some]
      cases hoffset : skipOffset frameType (fields.drop at₁) with
      | none => rfl
      | some at₂ =>
        simp only [Option.map_some, found_some_bind, Option.bind_some]
        split
        · rfl
        · obtain ⟨offset, rest, hsplit, rfl, -⟩ := skipOffset_split hoffset
          have hle' : at₁ + offset.length ≤ fields.length := by
            have := congrArg List.length hsplit
            simp only [List.length_drop, List.length_append] at this
            omega
          rw [sizedEnd_eq hle']
          cases skipSized (fields.drop (at₁ + offset.length)) <;> rfl
  · rfl

theorem triggeringFrame_eq (h : cursor ≤ fields.length) :
    triggeringFrame frameType fields cursor =
      found ((QmuxCloseCodec.triggeringFrame frameType (fields.drop cursor)).map fun (value, read) =>
        (value, cursor + read)) := by
  rw [triggeringFrame, QmuxCloseCodec.triggeringFrame]
  split
  · simp only [sliceFrom_of_le h, found_some_bind]
    cases readVarint (fields.drop cursor) <;> rfl
  · rfl

theorem triggeringFrame_le {value read : ℕ}
    (h : cursor ≤ fields.length)
    (htrigger : QmuxCloseCodec.triggeringFrame frameType (fields.drop cursor) = some (value, read)) :
    cursor + read ≤ fields.length := by
  rw [QmuxCloseCodec.triggeringFrame] at htrigger
  split at htrigger
  · exact drop_read htrigger
  · simp only [Option.some.injEq, Prod.mk.injEq] at htrigger
    omega

theorem decodeFields_eq (frameType : ℕ) (fields : Bytes) :
    decodeFields frameType fields = found (QmuxCloseCodec.decodeFields frameType fields) := by
  simp only [decodeFields, QmuxCloseCodec.decodeFields, sliceFrom_of_le (Nat.zero_le fields.length),
    found_some_bind, List.drop_zero, Nat.zero_add]
  cases hcode : readVarint fields with
  | none => rfl
  | some p =>
    have hcode' : p.2 ≤ fields.length := (readVarint_width hcode).2.2
    simp only [found_some_bind, Option.bind_eq_bind, Option.bind_some, triggeringFrame_eq hcode']
    cases htrigger : QmuxCloseCodec.triggeringFrame frameType (fields.drop p.2) with
    | none => rfl
    | some q =>
      have htrigger' := triggeringFrame_le hcode' htrigger
      simp only [Option.map_some, found_some_bind, Option.bind_some, sliceFrom_of_le htrigger',
        ← List.drop_drop]
      cases hlength : readVarint ((fields.drop p.2).drop q.2) with
      | none => rfl
      | some r =>
        rw [List.drop_drop] at hlength
        have hlength' := drop_read hlength
        simp only [found_some_bind, Option.bind_some, List.drop_drop, List.length_drop]
        by_cases hfits : p.2 + q.2 + r.2 + r.1 ≤ fields.length
        · have hcomplete : ¬fields.length - (p.2 + q.2 + r.2) < r.1 := by omega
          rw [if_pos hfits, if_neg hcomplete]
          rfl
        · have hcut : fields.length - (p.2 + q.2 + r.2) < r.1 := by omega
          rw [if_neg hfits, if_pos hcut]
          rfl

theorem decodeFrames_eq {payload : Bytes} {turns : ℕ} (h : cursor ≤ payload.length)
    (hturns : payload.length - cursor < turns) :
    decodeFrames payload turns cursor =
      found (QmuxCloseCodec.decodeCloseFrame (payload.drop cursor)) := by
  induction turns generalizing cursor with
  | zero => omega
  | succ turns ih =>
    rw [decodeFrames]
    split
    · rename_i hend
      rw [List.drop_eq_nil_of_le hend]
      rfl
    · rename_i hend
      simp only [sliceFrom_of_le h, found_some_bind]
      cases hread : readVarint (payload.drop cursor) with
      | none =>
        have hne : payload.drop cursor ≠ [] := by simp; omega
        obtain ⟨first, rest, hcons⟩ := List.exists_cons_of_ne_nil hne
        rw [hcons] at hread ⊢
        simp [QmuxCloseCodec.decodeCloseFrame, QmuxCloseCodec.decodeFrames, hread]
      | some p =>
        have hcursor := drop_read hread
        have hpos := (readVarint_width hread).1
        rw [decodeCloseFrame_eq hread (List.drop_drop ..).symm]
        simp only [found_some_bind, sliceFrom_of_le hcursor, decodeFields_eq, skipFrame_eq]
        split
        · rfl
        · cases hskip : QmuxCloseCodec.skipFrame p.1 (payload.drop (cursor + p.2)) with
          | none => rfl
          | some skipped =>
            have hle := skipFrame_le hskip
            rw [List.length_drop] at hle
            simp only [found_some_bind, Option.bind_some, List.drop_drop]
            exact ih (by omega) (by omega)

/-- The walk by cursor ends within one turn more than there are bytes, slices nothing out of
range and finds what the walk by slices finds. -/
theorem decodeCloseFrame_walk {payload : Bytes} {turns : ℕ} (h : payload.length < turns) :
    decodeCloseFrame payload turns = found (QmuxCloseCodec.decodeCloseFrame payload) := by
  rw [decodeCloseFrame, decodeFrames_eq (Nat.zero_le _) (by omega), List.drop_zero]

end Cursor

/-- The decoder accepts exactly its grammar. Its loop ends and never slices out of range; it
returns a close precisely where one stands behind complete frames; the frames in front of a
close have no part in what is returned; and nothing is found from an unknown or truncated
frame on. -/
theorem decodeCloseFrame_grammar (payload : Bytes) :
    (∀ extra, (Cursor.decodeCloseFrame payload (payload.length + 1 + extra)).run =
      .ok (decodeCloseFrame payload)) ∧
    (∀ close, decodeCloseFrame payload = some close ↔
      ∃ frames type fields rest frameType,
        payload = frames.flatten ++ (type ++ (fields ++ rest)) ∧
        FramesBefore frames (type ++ (fields ++ rest)) ∧
        readVarint type = some (frameType, type.length) ∧
        (frameType = 0x1c ∨ frameType = 0x1d) ∧ CloseBody frameType fields close) ∧
    ∀ frames tail, payload = frames.flatten ++ tail → FramesBefore frames tail →
      decodeCloseFrame payload = decodeCloseFrame tail ∧
      (Unreadable tail → decodeCloseFrame payload = none) := by
  refine ⟨fun extra => ?_, fun close => ?_, ?_⟩
  · rw [Cursor.decodeCloseFrame_walk (by omega)]
    rfl
  · rw [decodeCloseFrame_iff]
    constructor
    · rintro ⟨frames, tail, hsplit, hframes, ⟨head, body⟩⟩
      exact ⟨frames, _, _, _, _, hsplit, hframes, head, body.type, body⟩
    · rintro ⟨frames, type, fields, rest, frameType, hsplit, hframes, head, -, body⟩
      exact ⟨frames, _, hsplit, hframes, .mk head body⟩
  · rintro frames tail rfl hframes
    refine ⟨hframes.decode, fun hunreadable => ?_⟩
    rw [hframes.decode, hunreadable.decode]

end Ngnet.QmuxCloseCodec
