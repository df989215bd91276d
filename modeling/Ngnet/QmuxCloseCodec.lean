import Ngnet.QmuxVarints

/-!
# The CONNECTION_CLOSE codec

`io/close.rs`: dwnx parses an incoming close and produces nothing on the way out, so the
layer writes the record itself and finds a received close by walking the frames of a
record. The cursor `at` of the source is carried here as the slice that is left.

`FrameBody` states the layouts the walk knows, independently of the walk; the second half
of the file shows that the walk steps over exactly such frames and that a close written by
the encoder is found behind any number of them.
-/

namespace Ngnet.QmuxCloseCodec
open QmuxVarints

inductive CloseKind | transport | application | idleClose | unknown
  deriving DecidableEq, Repr

structure CloseReason where
  kind : CloseKind
  errorCode : ℕ
  frameType : ℕ
  reason : Bytes
  deriving DecidableEq, Repr

def frameConnectionClose : ℕ := 0x1c
def frameConnectionCloseApp : ℕ := 0x1d
def framePadding : ℕ := 0x00
def frameResetStream : ℕ := 0x04
def frameStopSending : ℕ := 0x05
def frameStream : ℕ := 0x08
def frameMaxData : ℕ := 0x10
def frameMaxStreamData : ℕ := 0x11
def frameMaxStreamsBidi : ℕ := 0x12
def frameMaxStreamsUni : ℕ := 0x13
def frameDataBlocked : ℕ := 0x14
def frameStreamDataBlocked : ℕ := 0x15
def frameStreamsBlockedBidi : ℕ := 0x16
def frameStreamsBlockedUni : ℕ := 0x17
def frameQxTransportParameters : ℕ := 0x3F5153300D0A0D0A
def frameQxPingRequest : ℕ := 0x348C67529EF8C7BD
def frameQxPingResponse : ℕ := 0x348C67529EF8C7BE

def streamLenBit : ℕ := 0x02
def streamOffBit : ℕ := 0x04

/-- `(frame_type & !0x07) == FRAME_STREAM` on a 64-bit frame type. -/
def IsStreamType (frameType : ℕ) : Prop := frameType &&& 0xfffffffffffffff8 = frameStream

instance (frameType : ℕ) : Decidable (IsStreamType frameType) :=
  inferInstanceAs (Decidable (_ = _))

/-- The frame types whose fields are one variable-length integer. -/
def oneVarintFrames : List ℕ :=
  [frameMaxData, frameMaxStreamsBidi, frameMaxStreamsUni, frameDataBlocked,
    frameStreamsBlockedBidi, frameStreamsBlockedUni, frameQxPingRequest, frameQxPingResponse]

/-- The frame types whose fields are two variable-length integers. -/
def twoVarintFrames : List ℕ := [frameStopSending, frameMaxStreamData, frameStreamDataBlocked]

/-! ## Encoding -/

def closeFrameType (reason : CloseReason) : ℕ :=
  if reason.kind = .application then frameConnectionCloseApp else frameConnectionClose

/-- Everything but the reason phrase and its length. -/
def closeFixed (reason : CloseReason) : ℕ :=
  varintLen (closeFrameType reason) + varintLen reason.errorCode +
    if reason.kind = .application then 0 else varintLen reason.frameType

/-- The room left for the reason phrase: its length field is budgeted two bytes. -/
def closeBudget (reason : CloseReason) : ℕ := maxRecordSize - (closeFixed reason + 2)

def closeReasonBytes (reason : CloseReason) : Bytes :=
  reason.reason.take (min reason.reason.length (closeBudget reason))

/-- The close frame, which is the whole payload of its record. -/
def closeFrame (reason : CloseReason) : Bytes :=
  let frame := writeVarint [] (closeFrameType reason)
  let frame := writeVarint frame reason.errorCode
  let frame := if reason.kind = .application then frame else writeVarint frame reason.frameType
  let frame := writeVarint frame (closeReasonBytes reason).length
  frame ++ closeReasonBytes reason

/-- Kept folded: nothing but its bytes and its length is used outside this module. -/
@[irreducible] def encodeCloseRecord (reason : CloseReason) : Bytes :=
  writeVarint [] (closeFrame reason).length ++ closeFrame reason

/-! ## Decoding -/

/-- The frame-type field and how many bytes it occupied. -/
def triggeringFrame (frameType : ℕ) (fields : Bytes) : Option (ℕ × ℕ) :=
  if frameType = frameConnectionClose then readVarint fields
  else
    -- an application close carries no frame type on the wire
    some (0, 0)

def decodeFields (frameType : ℕ) (fields : Bytes) : Option CloseReason := do
  let (errorCode, read) ← readVarint fields
  let fields := fields.drop read
  let (triggering, read) ← triggeringFrame frameType fields
  let fields := fields.drop read
  let (reasonLen, read) ← readVarint fields
  let fields := fields.drop read
  if fields.length < reasonLen then none
  else
    let kind := if frameType = frameConnectionClose then CloseKind.transport else .application
    some ⟨kind, errorCode, triggering, fields.take reasonLen⟩

/-- The closure `varints` of `skip_frame`. -/
def skipVarints : ℕ → Bytes → Option ℕ
  | 0, _ => some 0
  | count + 1, fields => do
    let (_, read) ← readVarint fields
    let more ← skipVarints count (fields.drop read)
    some (read + more)

/-- A length field followed by that many bytes. -/
def skipSized (fields : Bytes) : Option ℕ := do
  let (len, read) ← readVarint fields
  if read + len ≤ fields.length then some (read + len) else none

/-- The offset field of a STREAM frame, which is there only with its bit set. -/
def skipOffset (frameType : ℕ) (fields : Bytes) : Option ℕ :=
  if frameType &&& streamOffBit ≠ 0 then skipVarints 1 fields else some 0

def skipFrame (frameType : ℕ) (fields : Bytes) : Option ℕ :=
  if frameType = framePadding then some 0
  else if frameType ∈ oneVarintFrames then skipVarints 1 fields
  else if frameType ∈ twoVarintFrames then skipVarints 2 fields
  else if frameType = frameResetStream then skipVarints 3 fields
  else if frameType = frameQxTransportParameters then skipSized fields
  else if IsStreamType frameType then do
    let at₁ ← skipVarints 1 fields
    let at₂ ← skipOffset frameType (fields.drop at₁)
    -- without the length bit the data runs to the end of the record
    if frameType &&& streamLenBit = 0 then some fields.length
    else do
      let at₃ ← skipSized (fields.drop (at₁ + at₂))
      some (at₁ + at₂ + at₃)
  else none

/-- The loop of `decode_close_frame`: every turn reads a frame type, so one turn for each
byte of the payload is enough. -/
def decodeFrames : ℕ → Bytes → Option CloseReason
  | 0, _ => none
  | fuel + 1, payload =>
    if payload = [] then none
    else do
      let (frameType, read) ← readVarint payload
      let fields := payload.drop read
      if frameType = frameConnectionClose ∨ frameType = frameConnectionCloseApp then
        decodeFields frameType fields
      else do
        let skipped ← skipFrame frameType fields
        decodeFrames fuel (fields.drop skipped)

def decodeCloseFrame (payload : Bytes) : Option CloseReason := decodeFrames payload.length payload

theorem decodeFrames_nil (fuel : ℕ) : decodeFrames fuel [] = none := by
  cases fuel <;> simp [decodeFrames]

theorem decodeFrames_fuel {fuel : ℕ} {payload : Bytes} (h : payload.length ≤ fuel) :
    decodeFrames fuel payload = decodeCloseFrame payload := by
  unfold decodeCloseFrame
  induction fuel using Nat.strong_induction_on generalizing payload with
  | _ fuel ih =>
    cases payload with
    | nil => simp [decodeFrames_nil]
    | cons first rest =>
      obtain ⟨fuel, rfl⟩ : ∃ k, fuel = k + 1 := ⟨fuel - 1, by simp at h; omega⟩
      simp only [List.length_cons, decodeFrames]
      cases hread : readVarint (first :: rest) with
      | none => simp
      | some p =>
        have hwidth := readVarint_width hread
        simp only [List.length_cons] at h hwidth
        cases hskip : skipFrame p.1 ((first :: rest).drop p.2) with
        | none => simp [hskip]
        | some n =>
          -- both fuels leave enough for the shorter slice behind the frame
          have hlen : (((first :: rest).drop p.2).drop n).length ≤ rest.length := by
            simp; omega
          have h₁ := ih fuel (by omega) (le_trans hlen (by omega))
          have h₂ := ih rest.length (by omega) hlen
          simp only [Option.bind_eq_bind, Option.bind_some, hskip, h₁.trans h₂.symm]

variable {frameType : ℕ}

theorem decodeCloseFrame_eq {payload fields : Bytes} {width : ℕ}
    (hread : readVarint payload = some (frameType, width)) (hfields : fields = payload.drop width) :
    decodeCloseFrame payload =
      if frameType = frameConnectionClose ∨ frameType = frameConnectionCloseApp then
        decodeFields frameType fields
      else (skipFrame frameType fields).bind fun skipped =>
        decodeCloseFrame (fields.drop skipped) := by
  subst hfields
  have hwidth := readVarint_width hread
  obtain ⟨n, hn⟩ : ∃ n, payload.length = n + 1 := ⟨payload.length - 1, by omega⟩
  have hne : payload ≠ [] := by rintro rfl; simp at hn
  rw [decodeCloseFrame, hn, decodeFrames, if_neg hne, hread]
  simp only [Option.bind_eq_bind, Option.bind_some]
  split_ifs
  · rfl
  · cases hskip : skipFrame frameType (payload.drop width) with
    | none => rfl
    | some skipped =>
      simp only [Option.bind_some]
      exact decodeFrames_fuel (by simp; omega)

/-! ## Frame layouts -/

/-- Exactly `count` variable-length integers, in encodings of any width. -/
inductive Varints : ℕ → Bytes → Prop
  | nil : Varints 0 []
  | cons {count value : ℕ} {encoding rest : Bytes}
      (head : readVarint encoding = some (value, encoding.length)) (tail : Varints count rest) :
      Varints (count + 1) (encoding ++ rest)

/-- A length field, in an encoding of any width, followed by that many bytes. -/
inductive Sized : Bytes → Prop
  | mk {length data : Bytes} (head : readVarint length = some (data.length, length.length)) :
      Sized (length ++ data)

/-- The complete fields of a frame of the given type, its type aside. The two closes have
no layout here, and a STREAM frame has one only with its length bit set. -/
inductive FrameBody : ℕ → Bytes → Prop
  | padding : FrameBody framePadding []
  | one {frameType : ℕ} {body : Bytes} (type : frameType ∈ oneVarintFrames)
      (fields : Varints 1 body) : FrameBody frameType body
  | two {frameType : ℕ} {body : Bytes} (type : frameType ∈ twoVarintFrames)
      (fields : Varints 2 body) : FrameBody frameType body
  | three {body : Bytes} (fields : Varints 3 body) : FrameBody frameResetStream body
  | parameters {body : Bytes} (fields : Sized body) : FrameBody frameQxTransportParameters body
  | stream {frameType : ℕ} {id offset data : Bytes} (type : IsStreamType frameType)
      (sized : frameType &&& streamLenBit ≠ 0) (hid : Varints 1 id)
      (hoffset : Varints (if frameType &&& streamOffBit ≠ 0 then 1 else 0) offset)
      (hdata : Sized data) : FrameBody frameType (id ++ offset ++ data)

/-- A complete frame other than a close: its type in an encoding of any width, then its
fields. -/
inductive CompleteFrame : Bytes → Prop
  | mk {frameType : ℕ} {type body : Bytes} (head : readVarint type = some (frameType, type.length))
      (fields : FrameBody frameType body) : CompleteFrame (type ++ body)

variable {body : Bytes}

theorem Varints.skip {count : ℕ} (h : Varints count body) (rest : Bytes) :
    skipVarints count (body ++ rest) = some body.length := by
  induction h with
  | nil => rfl
  | cons head tail ih =>
    simp [skipVarints, readVarint_append _ head, List.append_assoc, ih]

theorem Sized.skip (h : Sized body) (rest : Bytes) :
    skipSized (body ++ rest) = some body.length := by
  obtain ⟨head⟩ := h
  simp [skipSized, List.append_assoc, readVarint_append _ head]

theorem FrameBody.not_close (h : FrameBody frameType body) :
    ¬(frameType = frameConnectionClose ∨ frameType = frameConnectionCloseApp) := by
  rintro (rfl | rfl) <;> cases h with
  | one type _ => exact absurd type (by decide)
  | two type _ => exact absurd type (by decide)
  | stream type => exact absurd type (by decide)

theorem skipFrame_stream (h : IsStreamType frameType) (fields : Bytes) :
    skipFrame frameType fields = (do
      let at₁ ← skipVarints 1 fields
      let at₂ ← skipOffset frameType (fields.drop at₁)
      if frameType &&& streamLenBit = 0 then some fields.length
      else do
        let at₃ ← skipSized (fields.drop (at₁ + at₂))
        some (at₁ + at₂ + at₃)) := by
  have hne (t : ℕ) (ht : ¬IsStreamType t) : frameType ≠ t := by rintro rfl; exact ht h
  have h₀ := hne framePadding (by decide)
  have h₁ : frameType ∉ oneVarintFrames := fun hm =>
    absurd h ((by decide : ∀ t ∈ oneVarintFrames, ¬IsStreamType t) _ hm)
  have h₂ : frameType ∉ twoVarintFrames := fun hm =>
    absurd h ((by decide : ∀ t ∈ twoVarintFrames, ¬IsStreamType t) _ hm)
  have h₃ := hne frameResetStream (by decide)
  have h₄ := hne frameQxTransportParameters (by decide)
  rw [skipFrame, if_neg h₀, if_neg h₁, if_neg h₂, if_neg h₃, if_neg h₄, if_pos h]

theorem FrameBody.skip (h : FrameBody frameType body)
    (rest : Bytes) : skipFrame frameType (body ++ rest) = some body.length := by
  cases h with
  | padding => simp [skipFrame]
  | one type fields =>
    have h₀ : frameType ≠ framePadding := by rintro rfl; exact absurd type (by decide)
    rw [skipFrame, if_neg h₀, if_pos type, fields.skip]
  | two type fields =>
    have h₀ : frameType ≠ framePadding := by rintro rfl; exact absurd type (by decide)
    have h₁ : frameType ∉ oneVarintFrames := fun hm =>
      (by decide : ∀ t ∈ twoVarintFrames, t ∉ oneVarintFrames) _ type hm
    rw [skipFrame, if_neg h₀, if_neg h₁, if_pos type, fields.skip]
  | three fields =>
    rw [skipFrame, if_neg (by decide), if_neg (by decide), if_neg (by decide), if_pos rfl,
      fields.skip]
  | parameters fields =>
    rw [skipFrame, if_neg (by decide), if_neg (by decide), if_neg (by decide), if_neg (by decide),
      if_pos rfl, fields.skip]
  | @stream frameType id offset data type sized hid hoffset hdata =>
    rw [skipFrame_stream type]
    have hoff : skipOffset frameType (offset ++ (data ++ rest)) = some offset.length := by
      rw [skipOffset]
      by_cases hbit : frameType &&& streamOffBit ≠ 0
      · rw [if_pos hbit] at hoffset ⊢
        exact hoffset.skip _
      · rw [if_neg hbit] at hoffset ⊢
        cases hoffset
        rfl
    simp only [List.append_assoc, hid.skip, Option.bind_eq_bind, Option.bind_some, List.drop_left,
      hoff, if_neg sized]
    rw [← List.append_assoc id, show id.length + offset.length = (id ++ offset).length by simp,
      List.drop_left, hdata.skip]
    simp [Nat.add_assoc]

theorem CompleteFrame.decode {frame : Bytes} (h : CompleteFrame frame) (rest : Bytes) :
    decodeCloseFrame (frame ++ rest) = decodeCloseFrame rest := by
  obtain ⟨head, fields⟩ := h
  rename_i frameType type body
  have hread := readVarint_append (body ++ rest) head
  rw [List.append_assoc, decodeCloseFrame_eq hread rfl, if_neg fields.not_close]
  simp [fields.skip]

theorem decodeCloseFrame_frames {frames : List Bytes} (h : ∀ f ∈ frames, CompleteFrame f)
    (rest : Bytes) : decodeCloseFrame (frames.flatten ++ rest) = decodeCloseFrame rest := by
  induction frames with
  | nil => rfl
  | cons f fs ih =>
    rw [List.flatten_cons, List.append_assoc, (h f (by simp)).decode,
      ih (fun g hg => h g (by simp [hg]))]

/-! ## A close written by the encoder -/

variable (reason : CloseReason)

theorem closeFixed_le : 2 ≤ closeFixed reason ∧ closeFixed reason ≤ 17 := by
  have h₁ : varintLen (closeFrameType reason) = 1 := by
    rw [closeFrameType]
    split <;> rfl
  have h₂ := varintLen_pos reason.errorCode
  have h₃ := varintLen_le reason.errorCode
  have h₄ := varintLen_le reason.frameType
  rw [closeFixed, h₁]
  split <;> omega

theorem length_closeReasonBytes :
    (closeReasonBytes reason).length ≤ closeBudget reason := by
  simp [closeReasonBytes]

theorem closeReasonBytes_eq :
    closeReasonBytes reason = reason.reason.take (closeBudget reason) := by
  rw [closeReasonBytes, ← List.take_take, List.take_of_length_le (l := List.take _ _) (by simp)]

theorem varintLen_closeReasonBytes :
    varintLen (closeReasonBytes reason).length ≤ 2 := by
  have h : (closeReasonBytes reason).length ≤ 0x3fff := by
    have := length_closeReasonBytes reason
    simp only [closeBudget, maxRecordSize] at this
    omega
  simp only [varintLen, h, if_true]
  split <;> omega

theorem closeFrame_eq :
    closeFrame reason =
      varintBytes (closeFrameType reason) ++ (varintBytes reason.errorCode ++
        ((if reason.kind = .application then [] else varintBytes reason.frameType) ++
          (varintBytes (closeReasonBytes reason).length ++ closeReasonBytes reason))) := by
  simp only [closeFrame, writeVarint, List.nil_append]
  split <;> simp [List.append_assoc]

theorem length_closeFrame :
    1 ≤ (closeFrame reason).length ∧ (closeFrame reason).length ≤ maxRecordSize := by
  have hlen : (closeFrame reason).length = closeFixed reason +
      varintLen (closeReasonBytes reason).length + (closeReasonBytes reason).length := by
    rw [closeFrame_eq, closeFixed]
    split <;> simp <;> omega
  have h₁ := closeFixed_le reason
  have h₂ := varintLen_closeReasonBytes reason
  have h₃ := length_closeReasonBytes reason
  simp only [closeBudget, maxRecordSize] at h₃ ⊢
  omega

/-- What a peer can recover of a close: the wire has two kinds of close and no third, and
a field above the largest variable-length integer is saturated. -/
def received (reason : CloseReason) : CloseReason where
  kind := if reason.kind = .application then .application else .transport
  errorCode := min reason.errorCode maxVarint
  frameType := if reason.kind = .application then 0 else min reason.frameType maxVarint
  reason := reason.reason.take (closeBudget reason)

theorem decodeFields_parts {errorCode triggering : ℕ} {trigger reason : Bytes}
    (htrigger : ∀ tail, triggeringFrame frameType (trigger ++ tail) =
      some (triggering, trigger.length)) (hlen : reason.length ≤ maxVarint) :
    decodeFields frameType
        (varintBytes errorCode ++ (trigger ++ (varintBytes reason.length ++ reason))) =
      some ⟨if frameType = frameConnectionClose then .transport else .application,
        min errorCode maxVarint, triggering, reason⟩ := by
  rw [decodeFields, readVarint_varintBytes, ← length_varintBytes]
  simp only [Option.bind_eq_bind, Option.bind_some, List.drop_left, htrigger]
  rw [readVarint_varintBytes, ← length_varintBytes, Nat.min_eq_left hlen]
  simp

theorem decodeFields_closeFrame :
    decodeFields (closeFrameType reason)
      ((closeFrame reason).drop (varintLen (closeFrameType reason))) = some (received reason) := by
  have hsmall : (closeReasonBytes reason).length ≤ maxVarint := by
    have := length_closeReasonBytes reason
    simp only [closeBudget, maxRecordSize, maxVarint] at this ⊢
    omega
  rw [closeFrame_eq, ← length_varintBytes, List.drop_left]
  by_cases hkind : reason.kind = .application
  · have happ : closeFrameType reason = frameConnectionCloseApp := by rw [closeFrameType, if_pos hkind]
    rw [happ, if_pos hkind, decodeFields_parts (fun _ => rfl) hsmall]
    simp [received, hkind, closeReasonBytes_eq, frameConnectionClose, frameConnectionCloseApp]
  · have htransport : closeFrameType reason = frameConnectionClose := by
      rw [closeFrameType, if_neg hkind]
    have htrigger (tail : Bytes) :
        triggeringFrame frameConnectionClose (varintBytes reason.frameType ++ tail) =
          some (min reason.frameType maxVarint, (varintBytes reason.frameType).length) := by
      rw [triggeringFrame, if_pos rfl, readVarint_varintBytes, length_varintBytes]
    rw [htransport, if_neg hkind, decodeFields_parts htrigger hsmall]
    simp [received, hkind, closeReasonBytes_eq]

theorem decodeCloseFrame_closeFrame :
    decodeCloseFrame (closeFrame reason) = some (received reason) := by
  have htype : closeFrameType reason = frameConnectionClose ∨
      closeFrameType reason = frameConnectionCloseApp := by
    rw [closeFrameType]
    split
    · exact .inr rfl
    · exact .inl rfl
  have hmin : min (closeFrameType reason) maxVarint = closeFrameType reason := by
    rcases htype with h | h <;> rw [h] <;> decide
  have hread : readVarint (closeFrame reason) =
      some (closeFrameType reason, varintLen (closeFrameType reason)) := by
    rw [closeFrame_eq, readVarint_varintBytes, hmin]
  rw [decodeCloseFrame_eq hread rfl, if_pos htype, decodeFields_closeFrame]

theorem encodeCloseRecord_eq :
    encodeCloseRecord reason = varintBytes (closeFrame reason).length ++ closeFrame reason := by
  rw [encodeCloseRecord, writeVarint, List.nil_append]

/-- For every close reason the encoder writes exactly one record, whose prefix is the length
of its payload and lies within the record bounds, and the close is recovered from behind any
sequence of complete frames. -/
theorem encodeCloseRecord_decodes (reason : CloseReason) :
    ∃ payload, encodeCloseRecord reason = varintBytes payload.length ++ payload ∧
      readVarint (encodeCloseRecord reason) =
        some (payload.length, (encodeCloseRecord reason).length - payload.length) ∧
      1 ≤ payload.length ∧ payload.length ≤ 16382 ∧
      ∀ frames : List Bytes, (∀ f ∈ frames, CompleteFrame f) →
        decodeCloseFrame (frames.flatten ++ payload) = some {
          kind := if reason.kind = .application then .application else .transport
          errorCode := min reason.errorCode (2 ^ 62 - 1)
          frameType := if reason.kind = .application then 0 else min reason.frameType (2 ^ 62 - 1)
          reason := reason.reason.take (closeBudget reason) } := by
  have hlen := length_closeFrame reason
  have hmin : min (closeFrame reason).length maxVarint = (closeFrame reason).length :=
    Nat.min_eq_left (le_trans hlen.2 (by decide))
  refine ⟨closeFrame reason, encodeCloseRecord_eq reason, ?_, hlen.1, hlen.2, ?_⟩
  · rw [encodeCloseRecord_eq, readVarint_varintBytes, hmin]
    simp
  · intro frames hframes
    rw [decodeCloseFrame_frames hframes, decodeCloseFrame_closeFrame]
    rfl

/-- A close behind a MAX_DATA frame. -/
theorem encodeCloseRecord_decodes_behind_maxData :
    let reason : CloseReason := ⟨.application, 7, 3, [98, 121, 101]⟩
    CompleteFrame [0x10, 0x44, 0x00] ∧
      ∃ payload, encodeCloseRecord reason = varintBytes payload.length ++ payload ∧
        decodeCloseFrame ([0x10, 0x44, 0x00] ++ payload) =
          some ⟨.application, 7, 0, [98, 121, 101]⟩ := by
  have hvalue : readVarint [0x44, 0x00] = some (1024, [0x44, 0x00].length) := by decide
  have htype : readVarint [0x10] = some (frameMaxData, [0x10].length) := by decide
  have hframe : CompleteFrame ([0x10] ++ [0x44, 0x00]) :=
    .mk htype (.one (by decide) (.cons hvalue .nil))
  obtain ⟨payload, hrecord, -, -, -, hdecode⟩ :=
    encodeCloseRecord_decodes ⟨.application, 7, 3, [98, 121, 101]⟩
  refine ⟨hframe, payload, hrecord, ?_⟩
  have h := hdecode [[0x10, 0x44, 0x00]] (by simpa using hframe)
  exact h

end Ngnet.QmuxCloseCodec
