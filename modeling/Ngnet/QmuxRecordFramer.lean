import Ngnet.QmuxErrors

/-!
# The record framer

`RecordFramer` of `io/framing.rs` follows the record boundaries of a QMux byte stream that
arrives in arbitrary pieces and latches the payload of the first record that carries a close.
A record that lies whole in the slice at hand is scanned in place; one that is spread over
several calls is reassembled first.

The state of the framer after a byte string is computed from the byte string alone
(`standing`), so the two code paths and every position of a cut are covered by one statement
about a single turn of the loop.
-/

namespace Ngnet.QmuxRecordFramer
open QmuxVarints QmuxCloseCodec QmuxErrors

/-! ## The program -/

/-- A partially received length field: the bytes of it that have arrived. -/
structure LengthPrefix where
  bytes : Bytes
  deriving DecidableEq, Repr

def LengthPrefix.isEmpty (p : LengthPrefix) : Bool := p.bytes.isEmpty

def LengthPrefix.width (p : LengthPrefix) : Option ℕ := p.bytes.head?.map encodedWidth

/-- The decoded length once it is complete, how many bytes were taken, and what is kept. -/
def LengthPrefix.feed (p : LengthPrefix) : Bytes → Option ℕ × ℕ × LengthPrefix
  | [] => (none, 0, p)
  | byte :: rest =>
    let p : LengthPrefix := ⟨p.bytes ++ [byte]⟩
    if p.width = some p.bytes.length then ((readVarint p.bytes).map Prod.fst, 1, ⟨[]⟩)
    else
      let (complete, taken, p) := p.feed rest
      (complete, taken + 1, p)

inductive State
  | length (partly : LengthPrefix)
  | payload (remaining : ℕ)
  deriving DecidableEq, Repr

structure RecordFramer where
  state : State
  record : Bytes
  close : Option Bytes
  deriving DecidableEq, Repr

namespace RecordFramer

def new : RecordFramer := ⟨.length ⟨[]⟩, [], none⟩

/-- The capacity reserved for a record that will be reassembled is not observable. -/
def beginRecord (f : RecordFramer) (length : ℕ) : Except Error Unit × RecordFramer :=
  if length = 0 then (.error ⟨.protocol, "the peer declared a record of zero length", none⟩, f)
  else if maxRecordSize < length then
    (.error ⟨.protocol, "the peer declared a record larger than the maximum record size", none⟩, f)
  else (.ok (), { f with record := [], state := .payload length })

def finishRecord (f : RecordFramer) (inPlace : Option Bytes) : RecordFramer :=
  let f := { f with state := .length ⟨[]⟩ }
  if f.close.isSome then f
  else match inPlace with
    | some payload =>
      if (decodeCloseFrame payload).isSome then { f with close := some payload } else f
    | none =>
      if (decodeCloseFrame f.record).isSome then { f with close := some f.record, record := [] }
      else { f with record := [] }

/-- One turn of the loop in `consume`, on a slice that is not empty. -/
def turn (f : RecordFramer) (rest : Bytes) : Except Error Unit × RecordFramer × Bytes :=
  match f.state with
  | .length partly =>
    let (complete, taken, partly) := partly.feed rest
    let f := { f with state := .length partly }
    let rest := rest.drop taken
    match complete with
    | some length =>
      let (result, f) := f.beginRecord length
      (result, f, rest)
    | none => (.ok (), f, rest)
  | .payload remaining =>
    let take := min remaining rest.length
    let inPlace := f.record.isEmpty && take == remaining && f.close.isNone
    let remaining := remaining - take
    let payload := rest.take take
    let record := if !inPlace && f.close.isNone then f.record ++ payload else f.record
    let f := { f with state := .payload remaining, record }
    let f := if remaining = 0 then f.finishRecord (if inPlace then some payload else none) else f
    (.ok (), f, rest.drop take)

/-- The loop of `consume`. A turn takes a byte or leaves a record with nothing to come, so
two turns for each byte are enough. -/
def consumeLoop : ℕ → RecordFramer → Bytes → Except Error Unit × RecordFramer
  | 0, f, _ => (.ok (), f)
  | fuel + 1, f, rest =>
    if rest = [] then (.ok (), f)
    else match f.turn rest with
      | (.error e, f, _) => (.error e, f)
      | (.ok (), f, rest) => consumeLoop fuel f rest

def consume (f : RecordFramer) (bytes : Bytes) : Except Error Unit × RecordFramer :=
  consumeLoop (2 * bytes.length) f bytes

/-- Successive calls of `consume`: a framer that returned an error is not fed again. -/
def consumeAll : RecordFramer → List Bytes → Except Error Unit × RecordFramer
  | f, [] => (.ok (), f)
  | f, chunk :: chunks => match f.consume chunk with
    | (.error e, f) => (.error e, f)
    | (.ok (), f) => f.consumeAll chunks

def atBoundary (f : RecordFramer) : Bool :=
  match f.state with
  | .length partly => partly.isEmpty
  | .payload _ => false

def latchedClose (f : RecordFramer) : Option Bytes := f.close

def closeReason (f : RecordFramer) : Option CloseReason := f.close.bind decodeCloseFrame

def retainedBytes (f : RecordFramer) : ℕ :=
  f.record.length + (f.close.map List.length).getD 0

end RecordFramer

/-! ## Records -/

/-- A complete record with the given payload: a length in an encoding of any width, within
the record bounds, and then the payload. -/
inductive IsRecord (payload : Bytes) : Bytes → Prop
  | mk {length : Bytes} (head : readVarint length = some (payload.length, length.length))
      (pos : 1 ≤ payload.length) (le : payload.length ≤ maxRecordSize) :
      IsRecord payload (length ++ payload)

/-- A concatenation of complete records, with their payloads in order. -/
inductive Records : Bytes → List Bytes → Prop
  | nil : Records [] []
  | cons {payload record rest : Bytes} {payloads : List Bytes} (head : IsRecord payload record)
      (tail : Records rest payloads) : Records (record ++ rest) (payload :: payloads)

/-- A complete length field met at a record boundary declares nothing, or more than the
maximum record size. -/
def Refused (s : Bytes) : Prop :=
  ∃ whole payloads rest declared width, s = whole ++ rest ∧ Records whole payloads ∧
    readVarint rest = some (declared, width) ∧ (declared = 0 ∨ maxRecordSize < declared)

/-- The payloads of the complete records of `s`, and what is left behind them: the length
declared there when it must be refused. -/
def splitRecords (s : Bytes) : List Bytes × Except ℕ Bytes :=
  match _h : readVarint s with
  | none => ([], .ok s)
  | some (declared, width) =>
    if declared = 0 ∨ maxRecordSize < declared then ([], .error declared)
    else if s.length < width + declared then ([], .ok s)
    else
      let more := splitRecords (s.drop (width + declared))
      ((s.drop width).take declared :: more.1, more.2)
termination_by s.length
decreasing_by
  have := readVarint_width _h
  simp only [List.length_drop]
  omega

theorem splitRecords_none {s : Bytes} (h : readVarint s = none) :
    splitRecords s = ([], .ok s) := by
  rw [splitRecords]
  split
  · rfl
  · simp_all

theorem splitRecords_some {s : Bytes} {declared width : ℕ}
    (h : readVarint s = some (declared, width)) :
    splitRecords s =
      if declared = 0 ∨ maxRecordSize < declared then ([], .error declared)
      else if s.length < width + declared then ([], .ok s)
      else ((s.drop width).take declared :: (splitRecords (s.drop (width + declared))).1,
        (splitRecords (s.drop (width + declared))).2) := by
  rw [splitRecords]
  split
  · simp_all
  · rename_i declared' width' h'
    obtain ⟨rfl, rfl⟩ : declared' = declared ∧ width' = width := by simpa [h] using h'.symm
    rfl

theorem splitRecords_record {payload record : Bytes} (h : IsRecord payload record) (rest : Bytes) :
    splitRecords (record ++ rest) =
      (payload :: (splitRecords rest).1, (splitRecords rest).2) := by
  obtain ⟨head, pos, le⟩ := h
  rename_i length
  rw [List.append_assoc, splitRecords_some (readVarint_append _ head), if_neg (by omega),
    if_neg (by simp), List.drop_left, List.take_left, ← List.append_assoc, ← List.length_append,
    List.drop_left]

theorem splitRecords_records {whole : Bytes} {payloads : List Bytes} (h : Records whole payloads)
    (rest : Bytes) :
    splitRecords (whole ++ rest) = (payloads ++ (splitRecords rest).1, (splitRecords rest).2) := by
  induction h with
  | nil => rfl
  | cons head tail ih => rw [List.append_assoc, splitRecords_record head, ih]; rfl

/-- The split really is a split: complete records, and behind them either an unfinished one or
a length that is refused. -/
theorem splitRecords_sound (s : Bytes) :
    ∃ whole rest, s = whole ++ rest ∧ Records whole (splitRecords s).1 ∧
      match (splitRecords s).2 with
      | .ok tail => rest = tail ∧ splitRecords tail = ([], .ok tail)
      | .error declared => (declared = 0 ∨ maxRecordSize < declared) ∧
          ∃ width, readVarint rest = some (declared, width) := by
  induction h : s.length using Nat.strong_induction_on generalizing s with
  | _ n ih =>
    cases hread : readVarint s with
    | none =>
      have hsplit := splitRecords_none hread
      exact ⟨[], s, rfl, by rw [hsplit]; exact .nil, by rw [hsplit]; exact ⟨rfl, hsplit⟩⟩
    | some p =>
      obtain ⟨declared, width⟩ := p
      have hsplit := splitRecords_some hread
      have hwidth := readVarint_width hread
      by_cases hbad : declared = 0 ∨ maxRecordSize < declared
      · rw [if_pos hbad] at hsplit
        refine ⟨[], s, rfl, by rw [hsplit]; exact .nil, ?_⟩
        rw [hsplit]
        exact ⟨hbad, width, hread⟩
      by_cases hshort : s.length < width + declared
      · rw [if_neg hbad, if_pos hshort] at hsplit
        exact ⟨[], s, rfl, by rw [hsplit]; exact .nil, by rw [hsplit]; exact ⟨rfl, hsplit⟩⟩
      · rw [if_neg hbad, if_neg hshort] at hsplit
        have hlen : (s.drop (width + declared)).length < n := by simp; omega
        obtain ⟨whole, rest, heq, hrecs, htail⟩ := ih _ hlen (s.drop (width + declared)) rfl
        set payload := (s.drop width).take declared with hpayload
        have hpl : payload.length = declared := by simp [hpayload]; omega
        have hrec : IsRecord payload (s.take width ++ payload) := by
          refine .mk ?_ (by omega) (by omega)
          rw [hpl, List.length_take_of_le hwidth.2.2]
          exact readVarint_take hread
        refine ⟨s.take width ++ payload ++ whole, rest, ?_, ?_, ?_⟩
        · rw [List.append_assoc, ← heq, hpayload, List.append_assoc, ← List.drop_drop,
            List.take_append_drop, List.take_append_drop]
        · rw [hsplit]
          exact .cons hrec hrecs
        · rw [hsplit]
          exact htail

theorem splitRecords_append {s tail : Bytes} (h : (splitRecords s).2 = .ok tail) (more : Bytes) :
    splitRecords (s ++ more) =
      ((splitRecords s).1 ++ (splitRecords (tail ++ more)).1, (splitRecords (tail ++ more)).2) := by
  obtain ⟨whole, rest, heq, hrecs, hrest⟩ := splitRecords_sound s
  rw [h] at hrest
  obtain ⟨rfl, -⟩ := hrest
  conv_lhs => rw [heq, List.append_assoc]
  exact splitRecords_records hrecs _

theorem splitRecords_append_refused {s : Bytes} {declared : ℕ}
    (h : (splitRecords s).2 = .error declared) (more : Bytes) :
    splitRecords (s ++ more) = splitRecords s := by
  obtain ⟨whole, rest, heq, hrecs, hrest⟩ := splitRecords_sound s
  rw [h] at hrest
  obtain ⟨hbad, width, hread⟩ := hrest
  have hwhole : splitRecords (s ++ more) = ((splitRecords s).1 ++ [], .error declared) := by
    conv_lhs => rw [heq, List.append_assoc]
    rw [splitRecords_records hrecs, splitRecords_some (readVarint_append more hread), if_pos hbad]
  rw [hwhole, List.append_nil, ← h]

theorem refused_iff (s : Bytes) : Refused s ↔ ∃ declared, (splitRecords s).2 = .error declared := by
  constructor
  · rintro ⟨whole, payloads, rest, declared, width, rfl, hrecs, hread, hbad⟩
    rw [splitRecords_records hrecs, splitRecords_some hread, if_pos hbad]
    exact ⟨declared, rfl⟩
  · rintro ⟨declared, h⟩
    obtain ⟨whole, rest, heq, hrecs, hrest⟩ := splitRecords_sound s
    rw [h] at hrest
    obtain ⟨hbad, width, hread⟩ := hrest
    exact ⟨whole, _, rest, declared, width, heq, hrecs, hread, hbad⟩

theorem records_iff (s : Bytes) : (∃ payloads, Records s payloads) ↔ (splitRecords s).2 = .ok [] := by
  constructor
  · rintro ⟨payloads, hrecs⟩
    have h := splitRecords_records hrecs []
    rw [List.append_nil, splitRecords_none readVarint_nil] at h
    rw [h]
  · intro h
    obtain ⟨whole, rest, heq, hrecs, hrest⟩ := splitRecords_sound s
    rw [h] at hrest
    obtain ⟨rfl, -⟩ := hrest
    rw [List.append_nil] at heq
    rw [← heq] at hrecs
    exact ⟨_, hrecs⟩

/-! ## The state after a byte string -/

/-- The payload of the first record that carries a close. -/
def firstClose (payloads : List Bytes) : Option Bytes :=
  payloads.find? fun payload => (decodeCloseFrame payload).isSome

/-- The framer that has latched `close` and then met `tail`, an unfinished record. -/
def standing (close : Option Bytes) (tail : Bytes) : RecordFramer :=
  match readVarint tail with
  | none => ⟨.length ⟨tail⟩, [], close⟩
  | some (declared, width) =>
    ⟨.payload (width + declared - tail.length),
      if close.isSome then [] else tail.drop width, close⟩

theorem standing_length {tail : Bytes} (close : Option Bytes) (h : readVarint tail = none) :
    standing close tail = ⟨.length ⟨tail⟩, [], close⟩ := by
  simp only [standing, h]

theorem standing_payload {tail : Bytes} {declared width : ℕ} (close : Option Bytes)
    (h : readVarint tail = some (declared, width)) :
    standing close tail = ⟨.payload (width + declared - tail.length),
      if close.isSome then [] else tail.drop width, close⟩ := by
  simp only [standing, h]

@[simp] theorem standing_close (close : Option Bytes) (tail : Bytes) :
    (standing close tail).close = close := by
  unfold standing
  split <;> rfl

theorem standing_atBoundary (close : Option Bytes) (tail : Bytes) :
    (standing close tail).atBoundary = true ↔ tail = [] := by
  unfold standing
  split
  · simp [RecordFramer.atBoundary, LengthPrefix.isEmpty]
  · rename_i h
    simp only [RecordFramer.atBoundary, Bool.false_eq_true, false_iff]
    rintro rfl
    simp at h

/-- A byte either completes the length field or leaves it unfinished, and the framer's test
of the width tells which. -/
theorem readVarint_snoc {seen : Bytes} (byte : UInt8) (h : readVarint seen = none) :
    (LengthPrefix.width ⟨seen ++ [byte]⟩ = some (seen ++ [byte]).length ∧
      ∃ value, readVarint (seen ++ [byte]) = some (value, seen.length + 1)) ∨
    (LengthPrefix.width ⟨seen ++ [byte]⟩ ≠ some (seen ++ [byte]).length ∧
      readVarint (seen ++ [byte]) = none) := by
  cases seen with
  | nil =>
    have hpos := encodedWidth_pos byte
    by_cases hw : encodedWidth byte = 1
    · left
      exact ⟨by simp [LengthPrefix.width, hw], _, by
        rw [List.nil_append, readVarint_cons, if_neg (by simp [hw]), hw]; rfl⟩
    · right
      refine ⟨by simpa [LengthPrefix.width] using hw, ?_⟩
      rw [List.nil_append, readVarint_cons, if_pos (by simp; omega)]
  | cons first rest =>
    rw [readVarint_cons] at h
    have hshort : rest.length + 1 < encodedWidth first := by
      by_contra hlen
      simp [hlen] at h
    by_cases hw : encodedWidth first = rest.length + 2
    · left
      exact ⟨by simp [LengthPrefix.width, hw], _, by
        rw [List.cons_append, readVarint_cons, if_neg (by simp [hw]), hw]; rfl⟩
    · right
      refine ⟨by simpa [LengthPrefix.width] using hw, ?_⟩
      rw [List.cons_append, readVarint_cons, if_pos (by simp; omega)]

theorem feed_unfinished {rest : Bytes} :
    ∀ {seen : Bytes}, readVarint (seen ++ rest) = none →
      LengthPrefix.feed ⟨seen⟩ rest = (none, rest.length, ⟨seen ++ rest⟩) := by
  induction rest with
  | nil => intro seen _; simp [LengthPrefix.feed]
  | cons byte rest ih =>
    intro seen h
    rw [List.append_cons] at h
    have hsnoc : readVarint (seen ++ [byte]) = none := readVarint_none_of_append h
    have hwidth : LengthPrefix.width ⟨seen ++ [byte]⟩ ≠ some (seen ++ [byte]).length := by
      rcases readVarint_snoc byte (readVarint_none_of_append hsnoc) with ⟨-, value, hvalue⟩ | ⟨hne, -⟩
      · rw [hvalue] at hsnoc
        exact absurd hsnoc (by simp)
      · exact hne
    simp only [LengthPrefix.feed, if_neg hwidth, ih h, List.length_cons]
    simp

theorem feed_complete {rest : Bytes} {value width : ℕ} :
    ∀ {seen : Bytes}, readVarint seen = none → readVarint (seen ++ rest) = some (value, width) →
      LengthPrefix.feed ⟨seen⟩ rest = (some value, width - seen.length, ⟨[]⟩) ∧
        seen.length < width := by
  induction rest with
  | nil =>
    intro seen hnone hsome
    rw [List.append_nil, hnone] at hsome
    exact absurd hsome (by simp)
  | cons byte rest ih =>
    intro seen hnone hsome
    rw [List.append_cons] at hsome
    rcases readVarint_snoc byte hnone with ⟨hwidth, v, hv⟩ | ⟨hwidth, hmore⟩
    · rw [readVarint_append rest hv] at hsome
      obtain ⟨rfl, rfl⟩ : v = value ∧ seen.length + 1 = width := by simpa using hsome
      simp [LengthPrefix.feed, hwidth, hv]
    · obtain ⟨hfeed, hlt⟩ := ih hmore hsome
      simp only [List.length_append, List.length_singleton] at hfeed hlt
      refine ⟨?_, by omega⟩
      simp only [LengthPrefix.feed, if_neg hwidth, hfeed, Prod.mk.injEq, true_and, and_true]
      omega

/-- An unfinished record: the beginning of one that the bytes so far do not complete. -/
def Unfinished (tail : Bytes) : Prop := splitRecords tail = ([], .ok tail)

theorem unfinished_nil : Unfinished [] := splitRecords_none readVarint_nil

theorem unfinished_of_short {tail : Bytes} {declared width : ℕ}
    (h : readVarint tail = some (declared, width))
    (hbad : ¬(declared = 0 ∨ maxRecordSize < declared)) (hshort : tail.length < width + declared) :
    Unfinished tail := by
  rw [Unfinished, splitRecords_some h, if_neg hbad, if_pos hshort]

theorem Unfinished.payload {tail : Bytes} {declared width : ℕ} (hun : Unfinished tail)
    (h : readVarint tail = some (declared, width)) :
    ¬(declared = 0 ∨ maxRecordSize < declared) ∧ tail.length < width + declared := by
  rw [Unfinished, splitRecords_some h] at hun
  split at hun
  · simp at hun
  · split at hun
    · exact ⟨by assumption, by assumption⟩
    · simp at hun

def refusal (declared : ℕ) : Error :=
  if declared = 0 then ⟨.protocol, "the peer declared a record of zero length", none⟩
  else ⟨.protocol, "the peer declared a record larger than the maximum record size", none⟩

theorem turn_length {tail rest : Bytes} (close : Option Bytes) (h : readVarint tail = none) :
    match readVarint (tail ++ rest) with
    | none => (standing close tail).turn rest = (.ok (), standing close (tail ++ rest), [])
    | some (declared, width) =>
      tail.length < width ∧
      if declared = 0 ∨ maxRecordSize < declared then
        ∃ more, (standing close tail).turn rest =
          (.error (refusal declared), standing close [], more)
      else (standing close tail).turn rest =
        (.ok (), standing close ((tail ++ rest).take width), rest.drop (width - tail.length)) := by
  rw [standing_length close h]
  split
  · rename_i hnone
    rw [RecordFramer.turn, standing_length close hnone]
    simp only [feed_unfinished hnone, List.drop_length]
  · rename_i declared width hsome
    obtain ⟨hfeed, hlt⟩ := feed_complete h hsome
    refine ⟨hlt, ?_⟩
    simp only [RecordFramer.turn, hfeed, RecordFramer.beginRecord]
    have hw := readVarint_width hsome
    rw [standing_payload close (readVarint_take hsome), List.length_take_of_le hw.2.2,
      Nat.add_sub_cancel_left]
    by_cases hzero : declared = 0
    · rw [if_pos hzero, if_pos (.inl hzero)]
      exact ⟨_, by simp [refusal, hzero, standing_length close readVarint_nil]; rfl⟩
    by_cases hbig : maxRecordSize < declared
    · rw [if_neg hzero, if_pos hbig, if_pos (.inr hbig)]
      exact ⟨_, by simp [refusal, hzero, standing_length close readVarint_nil]; rfl⟩
    · rw [if_neg hzero, if_neg hbig, if_neg (by omega)]
      simp

theorem turn_payload {tail rest : Bytes} {declared width : ℕ} (close : Option Bytes)
    (h : readVarint tail = some (declared, width)) (hshort : tail.length < width + declared) :
    if (tail ++ rest).length < width + declared then
      (standing close tail).turn rest = (.ok (), standing close (tail ++ rest), [])
    else (standing close tail).turn rest =
      (.ok (), standing (close.or (firstClose [((tail ++ rest).drop width).take declared])) [],
        (tail ++ rest).drop (width + declared)) := by
  have hw := readVarint_width h
  rw [standing_payload close h, RecordFramer.turn]
  split
  · rename_i hless
    rw [List.length_append] at hless
    have hmin : min (width + declared - tail.length) rest.length = rest.length := by omega
    have hne : ¬rest.length = width + declared - tail.length := by omega
    have hpos : ¬width + declared - tail.length - rest.length = 0 := by omega
    rw [standing_payload close (readVarint_append rest h)]
    simp only [hmin, beq_eq_false_iff_ne.mpr hne, if_neg hpos, List.take_length, List.drop_length]
    cases close with
    | none => simp [List.drop_append_of_le_length hw.2.2, Nat.sub_sub]
    | some c => simp [Nat.sub_sub]
  · rename_i hmore
    rw [List.length_append] at hmore
    have hmin : min (width + declared - tail.length) rest.length = width + declared - tail.length := by
      omega
    have hpayload : ((tail ++ rest).drop width).take declared =
        tail.drop width ++ rest.take (width + declared - tail.length) := by
      rw [List.drop_append_of_le_length hw.2.2, List.take_append, List.length_drop,
        List.take_of_length_le (by simp; omega)]
      congr 2
      omega
    have hdrop : (tail ++ rest).drop (width + declared) =
        rest.drop (width + declared - tail.length) := by
      rw [List.drop_append, List.drop_eq_nil_of_le (by omega), List.nil_append]
    rw [hpayload, hdrop, standing_length _ readVarint_nil]
    simp only [hmin, beq_self_eq_true, Nat.sub_self, if_true, Bool.and_true]
    cases close with
    | some c => simp [RecordFramer.finishRecord]
    | none =>
      by_cases hplace : tail.drop width = []
      · simp only [hplace, RecordFramer.finishRecord, firstClose]
        simp
        split <;> simp_all
      · simp only [RecordFramer.finishRecord, firstClose]
        simp [hplace]
        split <;> simp_all

theorem firstClose_append (before after : List Bytes) :
    firstClose (before ++ after) = (firstClose before).or (firstClose after) :=
  List.find?_append

/-- What a call reports and leaves, from the split of everything met so far. -/
def settled (close : Option Bytes) : List Bytes × Except ℕ Bytes → Except Error Unit × RecordFramer
  | (payloads, .ok tail) => (.ok (), standing (close.or (firstClose payloads)) tail)
  | (payloads, .error declared) =>
    (.error (refusal declared), standing (close.or (firstClose payloads)) [])

theorem settled_append (close : Option Bytes) (before payloads : List Bytes) (left : Except ℕ Bytes) :
    settled close (before ++ payloads, left) =
      settled (close.or (firstClose before)) (payloads, left) := by
  cases left <;> simp only [settled, firstClose_append, Option.or_assoc]

theorem settled_unfinished (close : Option Bytes) (tail : Bytes) :
    settled close ([], .ok tail) = (.ok (), standing close tail) := by
  simp [settled, firstClose]

/-- The loop follows the split of everything met so far: it fails exactly when a length is
refused, and otherwise stands behind the last complete record. -/
theorem consumeLoop_standing (n : ℕ) :
    ∀ (rest tail : Bytes) (close : Option Bytes) (fuel : ℕ), rest.length = n → n ≤ fuel →
      Unfinished tail →
      RecordFramer.consumeLoop fuel (standing close tail) rest =
        settled close (splitRecords (tail ++ rest)) := by
  induction n using Nat.strong_induction_on with
  | _ n ih =>
  intro rest tail close fuel hn hfuel hun
  by_cases hrest : rest = []
  · subst hrest
    rw [List.append_nil, hun, settled_unfinished]
    cases fuel <;> simp [RecordFramer.consumeLoop]
  have hpos := List.length_pos_of_ne_nil hrest
  obtain ⟨fuel, rfl⟩ : ∃ k, fuel = k + 1 := ⟨fuel - 1, by omega⟩
  rw [RecordFramer.consumeLoop, if_neg hrest]
  cases hread : readVarint tail with
  | none =>
    have hturn := @turn_length tail rest close hread
    cases hread' : readVarint (tail ++ rest) with
    | none =>
      rw [hread'] at hturn
      rw [splitRecords_none hread', hturn, settled_unfinished]
      cases fuel <;> simp [RecordFramer.consumeLoop]
    | some p =>
      obtain ⟨declared, width⟩ := p
      rw [hread'] at hturn
      obtain ⟨hlt, hturn⟩ := hturn
      by_cases hbad : declared = 0 ∨ maxRecordSize < declared
      · rw [if_pos hbad] at hturn
        obtain ⟨more, hturn⟩ := hturn
        rw [splitRecords_some hread', if_pos hbad, hturn]
        simp [settled, firstClose]
      · -- The length field is complete: the rest of the slice is met with it as the tail.
        rw [if_neg hbad] at hturn
        have hw := readVarint_width hread'
        have hsame : (tail ++ rest).take width ++ rest.drop (width - tail.length) = tail ++ rest := by
          rw [List.take_append, List.take_of_length_le (by omega), List.append_assoc,
            List.take_append_drop]
        have hstep := ih (rest.drop (width - tail.length)).length (by simp; omega)
          (rest.drop (width - tail.length)) ((tail ++ rest).take width) close fuel rfl
          (by simp; omega) (unfinished_of_short (readVarint_take hread') hbad
            (by rw [List.length_take_of_le hw.2.2]; omega))
        rw [hturn]
        rwa [hsame] at hstep
  | some p =>
    obtain ⟨declared, width⟩ := p
    obtain ⟨hbad, hshort⟩ := hun.payload hread
    have hturn := @turn_payload tail rest _ _ close hread hshort
    rw [splitRecords_some (readVarint_append rest hread), if_neg hbad]
    by_cases hless : (tail ++ rest).length < width + declared
    · rw [if_pos hless] at hturn ⊢
      rw [hturn, settled_unfinished]
      cases fuel <;> simp [RecordFramer.consumeLoop]
    · -- The record is complete: what follows it is met between records.
      rw [if_neg hless] at hturn ⊢
      have hlen : ((tail ++ rest).drop (width + declared)).length < n := by
        simp at hless ⊢
        omega
      have hstep := ih _ hlen _ [] (close.or (firstClose [((tail ++ rest).drop width).take declared]))
        fuel rfl (by omega) unfinished_nil
      rw [List.nil_append] at hstep
      rw [hturn]
      exact hstep.trans (settled_append close [_] _ _).symm

theorem consume_standing {tail : Bytes} (hun : Unfinished tail) (close : Option Bytes)
    (bytes : Bytes) :
    (standing close tail).consume bytes = settled close (splitRecords (tail ++ bytes)) :=
  consumeLoop_standing bytes.length bytes tail close (2 * bytes.length) rfl (by omega) hun

theorem splitRecords_unfinished {s tail : Bytes} (h : (splitRecords s).2 = .ok tail) :
    Unfinished tail := by
  obtain ⟨_, rest, -, -, hrest⟩ := splitRecords_sound s
  rw [h] at hrest
  exact hrest.2

theorem consumeAll_standing (chunks : List Bytes) :
    ∀ {tail : Bytes} (close : Option Bytes), Unfinished tail →
      (standing close tail).consumeAll chunks =
        settled close (splitRecords (tail ++ chunks.flatten)) := by
  induction chunks with
  | nil =>
    intro tail close hun
    rw [List.flatten_nil, List.append_nil, hun, settled_unfinished]
    rfl
  | cons chunk chunks ih =>
    intro tail close hun
    rw [List.flatten_cons, ← List.append_assoc, RecordFramer.consumeAll,
      consume_standing hun close chunk]
    cases hleft : (splitRecords (tail ++ chunk)).2 with
    | error declared =>
      rw [splitRecords_append_refused hleft, ← Prod.mk.eta (p := splitRecords (tail ++ chunk)), hleft]
      rfl
    | ok tail' =>
      rw [splitRecords_append hleft, settled_append, ← ih _ (splitRecords_unfinished hleft),
        ← Prod.mk.eta (p := splitRecords (tail ++ chunk)), hleft]
      rfl

theorem consumeAll_new (chunks : List Bytes) :
    RecordFramer.new.consumeAll chunks = settled none (splitRecords chunks.flatten) := by
  have hnew : RecordFramer.new = standing none [] := (standing_length none readVarint_nil).symm
  rw [hnew, consumeAll_standing chunks none unfinished_nil, List.nil_append]

/-- `payload` is that of the first complete record of `s` that carries a close. -/
def FirstCloseRecord (s payload : Bytes) : Prop :=
  ∃ before earlier record rest, s = before ++ record ++ rest ∧ Records before earlier ∧
    (∀ p ∈ earlier, decodeCloseFrame p = none) ∧ IsRecord payload record ∧
    (decodeCloseFrame payload).isSome

theorem Records.split {payload : Bytes} {before after : List Bytes} :
    ∀ {s : Bytes}, Records s (before ++ payload :: after) →
      ∃ front record rest, s = front ++ record ++ rest ∧ Records front before ∧
        IsRecord payload record := by
  induction before with
  | nil =>
    rintro s (_ | ⟨head, tail⟩)
    exact ⟨[], _, _, rfl, .nil, head⟩
  | cons p before ih =>
    rintro s (_ | ⟨head, tail⟩)
    obtain ⟨front, record, rest, rfl, hfront, hrecord⟩ := ih tail
    exact ⟨_, record, rest, by simp only [List.append_assoc], .cons head hfront, hrecord⟩

theorem firstClose_iff (s payload : Bytes) :
    firstClose (splitRecords s).1 = some payload ↔ FirstCloseRecord s payload := by
  constructor
  · intro h
    obtain ⟨hclose, before, after, heq, hbefore⟩ := List.find?_eq_some_iff_append.mp h
    obtain ⟨whole, rest, hs, hrecs, -⟩ := splitRecords_sound s
    rw [heq] at hrecs
    obtain ⟨front, record, more, rfl, hfront, hrecord⟩ := hrecs.split
    refine ⟨front, before, record, more ++ rest, by rw [hs, List.append_assoc], hfront, ?_, hrecord, hclose⟩
    intro p hp
    simpa using hbefore p hp
  · rintro ⟨front, earlier, record, rest, rfl, hfront, hearlier, hrecord, hclose⟩
    rw [List.append_assoc, splitRecords_records hfront, splitRecords_record hrecord, firstClose]
    refine List.find?_eq_some_iff_append.mpr ⟨hclose, earlier, _, rfl, ?_⟩
    intro p hp
    simp [hearlier p hp]

/-- The framer is exact, and blind to how the byte stream was cut: the calls succeed unless a
length must be refused, and then the framer knows whether the stream stands between records
and which record was the first to carry a close. -/
theorem consumeAll_exact (chunks : List Bytes) :
    let s := chunks.flatten
    let (result, framer) := RecordFramer.new.consumeAll chunks
    (result = .ok () ↔ ¬Refused s) ∧
    (result = .ok () →
      (framer.atBoundary = true ↔ ∃ payloads, Records s payloads) ∧
      (∀ payload, framer.latchedClose = some payload ↔ FirstCloseRecord s payload) ∧
      ∀ reason, framer.closeReason = some reason ↔
        ∃ payload, FirstCloseRecord s payload ∧ decodeCloseFrame payload = some reason) ∧
    ∀ (before after : List Bytes) (a b : Bytes), chunks = before ++ (a ++ b) :: after →
      RecordFramer.new.consumeAll (before ++ a :: b :: after) = (result, framer) := by
  intro s
  have hall := consumeAll_new chunks
  cases hrun : RecordFramer.new.consumeAll chunks with
  | mk result framer =>
  rw [hrun, ← Prod.mk.eta (p := splitRecords chunks.flatten)] at hall
  dsimp only
  refine ⟨?_, ?_, ?_⟩
  · rw [refused_iff]
    cases hleft : (splitRecords s).2 with
    | ok tail => simp_all [s, settled]
    | error declared => simp_all [s, settled]
  · rintro rfl
    cases hleft : (splitRecords s).2 with
    | error declared => simp_all [s, settled]
    | ok tail =>
      rw [hleft] at hall
      obtain rfl : framer = standing (firstClose (splitRecords s).1) tail := by
        simpa [settled] using congrArg Prod.snd hall
      refine ⟨?_, ?_, ?_⟩
      · rw [standing_atBoundary, records_iff, hleft]
        simp
      · intro payload
        rw [RecordFramer.latchedClose, standing_close, firstClose_iff]
      · intro reason
        rw [RecordFramer.closeReason, standing_close, Option.bind_eq_some_iff]
        simp only [firstClose_iff]
  · rintro before after a b rfl
    rw [← hrun, consumeAll_new, consumeAll_new]
    simp

/-- An application close cut inside its length field, its frame and its reason. -/
theorem consumeAll_exact_cut :
    let chunks : List Bytes := [[0x40], [6, 0x1d], [], [7, 3, 98], [121, 101]]
    (RecordFramer.new.consumeAll chunks).1 = .ok () ∧
      FirstCloseRecord chunks.flatten [0x1d, 7, 3, 98, 121, 101] :=
  ⟨by decide, (((consumeAll_exact _).2.1 (by decide)).2.1 _).mp (by decide)⟩

/-! ## What the framer retains -/

/-- A close that can be latched is the payload of a record. -/
def CloseFits (close : Option Bytes) : Prop := ∀ payload ∈ close, payload.length ≤ maxRecordSize

/-- The framer behind an unfinished record, with a close within the record bounds. -/
def Standing (f : RecordFramer) : Prop :=
  ∃ close tail, f = standing close tail ∧ Unfinished tail ∧ CloseFits close

theorem Records.length_le {s : Bytes} {payloads : List Bytes} (h : Records s payloads) :
    ∀ payload ∈ payloads, payload.length ≤ maxRecordSize := by
  induction h with
  | nil => simp
  | cons head tail ih =>
    obtain ⟨-, -, le⟩ := head
    intro payload hmem
    rcases List.mem_cons.1 hmem with rfl | hmem
    · exact le
    · exact ih payload hmem

theorem closeFits_firstClose {s : Bytes} {payloads : List Bytes} (h : Records s payloads) :
    CloseFits (firstClose payloads) := by
  intro payload hfirst
  exact h.length_le payload (List.mem_of_find?_eq_some hfirst)

theorem CloseFits.or {close later : Option Bytes} (h : CloseFits close) (hlater : CloseFits later) :
    CloseFits (close.or later) := by
  cases close with
  | none => exact hlater
  | some payload => exact h

theorem standing_new : Standing .new :=
  ⟨none, [], (standing_length none readVarint_nil).symm, unfinished_nil, by simp [CloseFits]⟩

theorem Standing.consume {f : RecordFramer} (h : Standing f) (bytes : Bytes) :
    Standing (f.consume bytes).2 := by
  obtain ⟨close, tail, rfl, hun, hclose⟩ := h
  obtain ⟨whole, rest, -, hrecs, -⟩ := splitRecords_sound (tail ++ bytes)
  have hfits := hclose.or (closeFits_firstClose hrecs)
  rw [consume_standing hun, ← Prod.mk.eta (p := splitRecords (tail ++ bytes))]
  cases hleft : (splitRecords (tail ++ bytes)).2 with
  | error declared => exact ⟨_, [], rfl, unfinished_nil, hfits⟩
  | ok tail' => exact ⟨_, tail', rfl, splitRecords_unfinished hleft, hfits⟩

/-- Calls made whether the one before failed or not. -/
def RecordFramer.fed (f : RecordFramer) (chunks : List Bytes) : RecordFramer :=
  chunks.foldl (fun f chunk => (f.consume chunk).2) f

theorem standing_fed (chunks : List Bytes) {f : RecordFramer} (h : Standing f) :
    Standing (f.fed chunks) := by
  induction chunks generalizing f with
  | nil => exact h
  | cons chunk chunks ih => exact ih (h.consume chunk)

theorem standing_record_of_close {close : Option Bytes} (tail : Bytes) (h : close.isSome) :
    (standing close tail).record = [] := by
  unfold standing
  split <;> simp [h]

theorem standing_record_length_le {tail : Bytes} (close : Option Bytes) (hun : Unfinished tail) :
    (standing close tail).record.length ≤ maxRecordSize := by
  cases hread : readVarint tail with
  | none => simp [standing_length close hread]
  | some p =>
    obtain ⟨hbounds, hshort⟩ := hun.payload hread
    rw [standing_payload close hread]
    split
    · simp
    · rw [List.length_drop]
      omega

theorem Standing.retained_le {f : RecordFramer} (h : Standing f) :
    f.retainedBytes ≤ maxRecordSize := by
  obtain ⟨close, tail, rfl, hun, hclose⟩ := h
  rw [RecordFramer.retainedBytes, standing_close]
  cases close with
  | none => simpa using standing_record_length_le none hun
  | some payload =>
    -- with a close latched nothing of a record is kept beside it
    rw [standing_record_of_close tail rfl]
    simpa using hclose payload rfl

theorem Standing.record_of_boundary {f : RecordFramer} (h : Standing f)
    (hboundary : f.atBoundary = true) : f.record = [] := by
  obtain ⟨close, tail, rfl, -, -⟩ := h
  obtain rfl := (standing_atBoundary close tail).1 hboundary
  rw [standing_length close readVarint_nil]

/-- How the bytes met so far end: the length field of the current record, complete or not,
and what of its payload has arrived. -/
def CurrentRecord (s received : Bytes) : Prop :=
  ∃ whole payloads length, s = whole ++ (length ++ received) ∧ Records whole payloads ∧
    ((length ≠ [] ∧ readVarint length = none ∧ received = []) ∨
      ∃ declared, readVarint length = some (declared, length.length) ∧ received.length < declared)

theorem currentRecord_standing {s tail : Bytes} (hleft : (splitRecords s).2 = .ok tail)
    (hne : tail ≠ []) : CurrentRecord s (standing none tail).record := by
  obtain ⟨whole, rest, hs, hrecs, hrest⟩ := splitRecords_sound s
  rw [hleft] at hrest
  obtain ⟨rfl, hun⟩ := hrest
  cases hread : readVarint rest with
  | none =>
    rw [standing_length none hread]
    exact ⟨whole, _, rest, by rw [List.append_nil, ← hs], hrecs, .inl ⟨hne, hread, rfl⟩⟩
  | some p =>
    obtain ⟨declared, width⟩ := p
    have hwidth := readVarint_width hread
    obtain ⟨-, hshort⟩ := Unfinished.payload hun hread
    rw [standing_payload none hread]
    refine ⟨whole, _, rest.take width, ?_, hrecs, .inr ⟨declared, ?_, ?_⟩⟩
    · simpa using hs
    · rw [List.length_take_of_le hwidth.2.2]
      exact readVarint_take hread
    · simp only [Option.isSome_none, Bool.false_eq_true, if_false, List.length_drop]
      omega

/-- At most one record is held, and nothing of a record in progress with a close latched or
between records. -/
structure Retains (f : RecordFramer) : Prop where
  bounded : f.retainedBytes ≤ 16382
  latched : f.latchedClose.isSome → f.record = []
  boundary : f.atBoundary = true → f.record = []

theorem Standing.retains {f : RecordFramer} (h : Standing f) : Retains f := by
  constructor
  · exact h.retained_le
  · intro hclose
    obtain ⟨close, tail, rfl, -, -⟩ := h
    rw [RecordFramer.latchedClose, standing_close] at hclose
    exact standing_record_of_close tail hclose
  · exact h.record_of_boundary

theorem standing_consumeAll (chunks : List Bytes) {f : RecordFramer} (h : Standing f) :
    Standing (f.consumeAll chunks).2 := by
  induction chunks generalizing f with
  | nil => exact h
  | cons chunk chunks ih =>
    have hnext := h.consume chunk
    rw [RecordFramer.consumeAll]
    split
    · rename_i hrun
      rw [hrun] at hnext
      exact hnext
    · rename_i hrun
      rw [hrun] at hnext
      exact ih hnext

/-- Whatever is fed and however it is cut, also past a length that was refused, the framer
retains no more than it may; and in the middle of a record, with no close latched, the buffer
holds exactly what has arrived of that record's payload. -/
theorem retention_bounded (chunks : List Bytes) :
    Retains (RecordFramer.new.fed chunks) ∧
    Retains (RecordFramer.new.consumeAll chunks).2 ∧
    ((RecordFramer.new.consumeAll chunks).2.atBoundary = false →
      (RecordFramer.new.consumeAll chunks).2.latchedClose = none →
      CurrentRecord chunks.flatten (RecordFramer.new.consumeAll chunks).2.record) := by
  refine ⟨(standing_fed chunks standing_new).retains,
    (standing_consumeAll chunks standing_new).retains, ?_⟩
  have hall := consumeAll_new chunks
  rw [← Prod.mk.eta (p := splitRecords chunks.flatten)] at hall
  rw [hall]
  cases hleft : (splitRecords chunks.flatten).2 with
  | error declared =>
    -- a refused length leaves the framer between records
    intro hinside
    simp only [settled] at hinside
    rw [(standing_atBoundary _ []).2 rfl] at hinside
    exact absurd hinside (by simp)
  | ok tail =>
    intro hinside hclose
    simp only [settled, RecordFramer.latchedClose, standing_close] at hinside hclose ⊢
    rw [hclose] at hinside ⊢
    refine currentRecord_standing hleft fun hnil => ?_
    rw [(standing_atBoundary none tail).2 hnil] at hinside
    exact absurd hinside (by simp)

end Ngnet.QmuxRecordFramer
