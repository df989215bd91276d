import Mathlib.Tactic.IntervalCases
import Ngnet.Histories
import Ngnet.Http3Conn

/-!
# What the handlers record

`http/events.rs` of the crate `ngnet-h3`, with the buffer that the driver lends for a read. A chunk is where its bytes
stand in memory, and a body is a view of the lent buffer where the chunk lies within it. The handlers are called for any
streams in any order; between two calls the driver lends a buffer, takes what was observed, or discards a close that it
made itself.
-/

namespace Ngnet.Http3Observations
open QmuxVarints Http3Heads Http3Conn Histories
open QmuxStreams (StreamId)

/-! ## Memory -/

abbrev Memory := ℕ → UInt8

/-- What memory holds from an address on. -/
def slice (memory : Memory) (address length : ℕ) : Bytes := (List.range length).map fun i => memory (address + i)

/-- A buffer of the transport, and where it stands. -/
structure Buffer where
  address : ℕ
  bytes : Bytes
  deriving DecidableEq, Repr

/-- The buffer is not written to while it is lent. -/
def Buffer.Intact (buffer : Buffer) (memory : Memory) : Prop :=
  slice memory buffer.address buffer.bytes.length = buffer.bytes

/-- `view_of`. -/
def viewOf (parent : Buffer) (memory : Memory) (address length : ℕ) : Bytes :=
  if length = 0 then []
  else if parent.address ≤ address ∧ address + length ≤ parent.address + parent.bytes.length then
    (parent.bytes.take (address + length - parent.address)).drop (address - parent.address)
  else slice memory address length

theorem viewOf_eq {parent : Buffer} {memory : Memory} (h : parent.Intact memory) (address length : ℕ) :
    viewOf parent memory address length = slice memory address length := by
  rw [viewOf]
  split
  · rename_i hempty
    rw [hempty]
    rfl
  split
  · rename_i hinside
    rw [← h]
    refine List.ext_getElem ?_ fun i hi hi' => ?_
    · simp [slice]
      omega
    · simp [slice]
      congr 1
      omega
  · rfl

/-! ## The handlers -/

/-- `Events`, with the buffer that is lent. -/
structure Context where
  events : Events := {}
  inbound : Option Buffer := none

inductive Report
  | setInbound (buffer : Option Buffer)
  | beginSection (stream : StreamId) (fieldSection : FieldSection)
  | field (stream : StreamId) (name value : Bytes)
  | endSection (stream : StreamId) (fieldSection : FieldSection)
  | data (stream : StreamId) (memory : Memory) (address length : ℕ)
  | ended (stream : StreamId)
  | closed (stream : StreamId) (closed : StreamClosed)
  | shutdown (shutdown : Shutdown)
  | settings (settings : PeerSettings)
  | discardClosedSince (checkpoint : ℕ) (stream : StreamId)
  | drain

/-- The loop of `discard_closed_since`. -/
def discardLoop (stream : StreamId) (observed : List Observation) (index : ℕ) : List Observation :=
  if h : index < observed.length then
    if Events.isClosedOf stream observed[index] then discardLoop stream (observed.eraseIdx index) index
    else discardLoop stream observed (index + 1)
  else observed
termination_by observed.length - index
decreasing_by
  · rw [List.length_eraseIdx_of_lt h]
    omega
  · omega

namespace Context

def onEvents (c : Context) (f : Events → Events) : Context := { c with events := f c.events }

/-- `push_data`. -/
def pushData (c : Context) (stream : StreamId) (memory : Memory) (address length : ℕ) : Context :=
  c.onEvents (·.push (.data stream (match c.inbound with
    | some parent => viewOf parent memory address length
    | none => slice memory address length)))

def step (c : Context) : Report → Context
  | .setInbound buffer => { c with inbound := buffer }
  | .beginSection stream fieldSection => c.onEvents (·.beginSection stream fieldSection)
  | .field stream name value => c.onEvents (·.pushField stream name value)
  | .endSection stream fieldSection => c.onEvents (·.endSection stream fieldSection)
  | .data stream memory address length => c.pushData stream memory address length
  | .ended stream => c.onEvents (·.push (.ended stream))
  | .closed stream closed => c.onEvents (·.pushClosed stream closed)
  | .shutdown shutdown => c.onEvents (·.push (.shutdown shutdown))
  | .settings settings => c.onEvents (·.push (.settings settings))
  | .discardClosedSince checkpoint stream =>
    c.onEvents fun events => { events with observed := discardLoop stream events.observed checkpoint }
  | .drain => c.onEvents ({ · with observed := [] })

end Context

def reached (reports : List Report) : Context := reports.foldl Context.step {}

theorem reached_concat (reports : List Report) (report : Report) :
    reached (reports ++ [report]) = (reached reports).step report := by
  simp [reached]

theorem discardLoop_eq (stream : StreamId) (observed : List Observation) (index : ℕ) :
    discardLoop stream observed index = observed.take index ++
      (observed.drop index).filter fun observation => !Events.isClosedOf stream observation := by
  fun_induction discardLoop stream observed index with
  | case1 observed index h hclosed ih =>
    have hlength : (observed.take index).length = index := List.length_take_of_le h.le
    rw [ih, List.eraseIdx_eq_take_drop_succ, List.take_left' hlength, List.drop_left' hlength,
      List.drop_eq_getElem_cons h, List.filter_cons_of_neg (by simp [hclosed])]
  | case2 observed index h hkept ih =>
    rw [ih, List.drop_eq_getElem_cons h, List.filter_cons_of_pos (by simpa using hkept),
      List.take_succ_eq_append_getElem h, List.append_assoc, List.singleton_append]
  | case3 observed index h =>
    rw [List.take_of_length_le (not_lt.mp h), List.drop_of_length_le (not_lt.mp h)]
    simp

/-! ## What is reported of a stream -/

def begins (stream : StreamId) : Report → Bool
  | .beginSection other _ => other = stream
  | _ => false

/-- A section begins, ends or is cut off. -/
def isBoundary (stream : StreamId) : Report → Bool
  | .beginSection other _ | .endSection other _ | .closed other _ => other = stream
  | _ => false

def fieldOf (stream : StreamId) : Report → Option Field
  | .field other name value => if other = stream then some (name, value) else none
  | _ => none

/-- The latest section of the stream has neither ended nor been cut off. -/
def inSection (stream : StreamId) (reports : List Report) : Bool :=
  ((reports.filter (isBoundary stream)).getLast?).any (begins stream)

/-- The fields of the stream since its latest section began. -/
def fieldsSince (stream : StreamId) (reports : List Report) : List Field :=
  (reports.reverse.takeWhile (!begins stream ·)).reverse.filterMap (fieldOf stream)

/-- What a report makes observable. -/
def told (before : List Report) : Report → Option Observation
  | .endSection stream fieldSection =>
    if inSection stream before then some (.head stream fieldSection (fieldsSince stream before)) else none
  | .data stream memory address length => some (.data stream (slice memory address length))
  | .ended stream => some (.ended stream)
  | .closed stream closed => some (.closed stream closed)
  | .shutdown shutdown => some (.shutdown shutdown)
  | .settings settings => some (.settings settings)
  | _ => none

/-- What is to be observed behind a report. -/
def recorded (before : List Report) (report : Report) (observed : List Observation) : List Observation :=
  match report with
  | .discardClosedSince checkpoint stream =>
    observed.take checkpoint ++ (observed.drop checkpoint).filter fun observation => !Events.isClosedOf stream observation
  | .drain => []
  | report => observed ++ (told before report).toList

/-- nghttp3 reports a field within a section only. -/
def Bracketed (before : List Report) : Report → Prop
  | .field stream _ _ => inSection stream before = true
  | _ => True

/-- A lent buffer is as it was when the chunk is reported. -/
def Undisturbed (before : List Report) : Report → Prop
  | .data _ memory _ _ => ∀ parent, (reached before).inbound = some parent → parent.Intact memory
  | _ => True

theorem inSection_concat (stream : StreamId) (reports : List Report) (report : Report) :
    inSection stream (reports ++ [report]) =
      if isBoundary stream report then begins stream report else inSection stream reports := by
  rw [inSection, List.filter_append]
  by_cases h : isBoundary stream report = true
  · simp [h]
  · simp [h, inSection]

theorem fieldsSince_concat (stream : StreamId) (reports : List Report) (report : Report) :
    fieldsSince stream (reports ++ [report]) =
      if begins stream report then [] else fieldsSince stream reports ++ (fieldOf stream report).toList := by
  rw [fieldsSince, List.reverse_append, List.reverse_singleton, List.singleton_append, List.takeWhile_cons]
  by_cases h : begins stream report = true
  · simp [h]
  · cases hfield : fieldOf stream report with
    | none => simp [h, fieldsSince, hfield]
    | some field => simp [h, fieldsSince, hfield]

/-! ## The sections in progress -/

section Partials
variable {stream other : StreamId} {partials : List (StreamId × Partial)}

/-- The fields of the section that the stream has in progress. -/
def progress (stream : StreamId) (partials : List (StreamId × Partial)) : Option (List Field) :=
  (partials.find? (·.1 = stream)).map (·.2.fields)

theorem find_onSlot (f : Partial → Partial) :
    (Events.onSlot stream f partials).find? (·.1 = other) =
      if stream = other then some (stream, f (((partials.find? (·.1 = stream)).map (·.2)).getD {}))
      else partials.find? (·.1 = other) := by
  induction partials with
  | nil => by_cases h : stream = other <;> simp [Events.onSlot, h]
  | cons entry rest ih =>
    rw [Events.onSlot]
    split
    · rename_i hentry
      by_cases h : stream = other
      · simp [← h, hentry]
      · simp [hentry, h]
    · rename_i hentry
      by_cases hother : entry.1 = other
      · have hne : stream ≠ other := fun heq => hentry (hother.trans heq.symm)
        simp [hother, hne]
      · rw [List.find?_cons_of_neg (by simpa using hother), ih, List.find?_cons_of_neg (by simpa using hentry),
          List.find?_cons_of_neg (by simpa using hother)]

theorem keys_onSlot (f : Partial → Partial) : (Events.onSlot stream f partials).map (·.1) =
    if stream ∈ partials.map (·.1) then partials.map (·.1) else partials.map (·.1) ++ [stream] := by
  induction partials with
  | nil => rfl
  | cons entry rest ih =>
    rw [Events.onSlot]
    split
    · rename_i hentry
      simp [hentry]
    · rename_i hentry
      simp only [List.map_cons, ih, List.mem_cons, Ne.symm hentry, false_or]
      split
      · rfl
      · rfl

theorem nodup_onSlot (h : (partials.map (·.1)).Nodup) (f : Partial → Partial) :
    ((Events.onSlot stream f partials).map (·.1)).Nodup := by
  rw [keys_onSlot]
  split
  · exact h
  · rename_i hnew
    exact List.nodup_append.mpr ⟨h, by simp, fun a ha b hb heq => hnew (by simpa [← List.mem_singleton.mp hb, ← heq] using ha)⟩

theorem eraseP_eq_filter (h : (partials.map (·.1)).Nodup) :
    partials.eraseP (·.1 = stream) = partials.filter (·.1 ≠ stream) := by
  induction partials with
  | nil => rfl
  | cons entry rest ih =>
    obtain ⟨hnew, hrest⟩ := List.nodup_cons.mp h
    by_cases hentry : entry.1 = stream
    · have hothers : rest.filter (·.1 ≠ stream) = rest :=
        List.filter_eq_self.mpr fun other hother => decide_eq_true fun heq =>
          hnew (List.mem_map.mpr ⟨other, hother, heq.trans hentry.symm⟩)
      rw [List.eraseP_cons_of_pos (by simpa using hentry), List.filter_cons_of_neg (by simpa using hentry), hothers]
    · rw [List.eraseP_cons_of_neg (by simpa using hentry), List.filter_cons_of_pos (by simpa using hentry), ih hrest]

theorem progress_filter : progress other (partials.filter (·.1 ≠ stream)) =
    if stream = other then none else progress other partials := by
  rw [progress, List.find?_filter]
  by_cases h : stream = other
  · rw [if_pos h, Option.map_eq_none_iff, List.find?_eq_none]
    simp [h]
  · rw [if_neg h, progress]
    congr 2
    funext entry
    by_cases hentry : entry.1 = other
    · simp [hentry, Ne.symm h]
    · simp [hentry]

theorem progress_begin (fieldSection : FieldSection) :
    progress other (Events.onSlot stream (fun _ => ⟨some fieldSection, []⟩) partials) =
      if stream = other then some [] else progress other partials := by
  rw [progress, find_onSlot]
  split
  · rfl
  · rfl

theorem progress_field {fields : List Field} (h : progress stream partials = some fields) (field : Field) :
    progress other (Events.onSlot stream (fun slot => { slot with fields := slot.fields ++ [field] }) partials) =
      if stream = other then some (fields ++ [field]) else progress other partials := by
  obtain ⟨entry, hentry, rfl⟩ := Option.map_eq_some_iff.mp h
  rw [progress, find_onSlot, hentry]
  split
  · rfl
  · rfl

end Partials

/-! ## Runs -/

/-- Of each stream the fields of its section are kept, and of no other. -/
structure Kept (reports : List Report) (c : Context) : Prop where
  keys : (c.events.partials.map (·.1)).Nodup
  fields : ∀ stream, progress stream c.events.partials =
    if inSection stream reports then some (fieldsSince stream reports) else none

section Step
variable {reports : List Report} {c : Context}

theorem Kept.apart (h : Kept reports c) {report : Report} {c' : Context} (hpartials : c'.events.partials = c.events.partials)
    (hboundary : ∀ stream, isBoundary stream report = false) (hfield : ∀ stream, fieldOf stream report = none) :
    Kept (reports ++ [report]) c' := by
  have hbegins (stream : StreamId) : begins stream report = false := by
    have hnone := hboundary stream
    cases report <;> simp_all [begins, isBoundary]
  refine ⟨hpartials ▸ h.keys, fun stream => ?_⟩
  rw [hpartials, h.fields, inSection_concat, fieldsSince_concat, hboundary, hbegins, hfield]
  simp

theorem partials_endSection (hkeys : (c.events.partials.map (·.1)).Nodup) (stream : StreamId)
    (fieldSection : FieldSection) :
    (c.events.endSection stream fieldSection).partials = c.events.partials.filter (·.1 ≠ stream) := by
  rw [Events.endSection]
  split
  · rename_i hnone
    refine (List.filter_eq_self.mpr fun entry hentry => ?_).symm
    simpa using List.find?_eq_none.mp hnone entry hentry
  · exact eraseP_eq_filter hkeys

theorem Kept.without (h : Kept reports c) (stream : StreamId) {report : Report} {c' : Context}
    (hpartials : c'.events.partials = c.events.partials.filter (·.1 ≠ stream))
    (hboundary : ∀ other, isBoundary other report = decide (stream = other)) (hbegins : ∀ other, begins other report = false)
    (hfield : ∀ other, fieldOf other report = none) : Kept (reports ++ [report]) c' := by
  refine ⟨?_, fun other => ?_⟩
  · rw [hpartials]
    exact h.keys.sublist (List.filter_sublist.map _)
  · rw [hpartials, progress_filter, h.fields, inSection_concat, fieldsSince_concat, hboundary, hbegins, hfield]
    by_cases heq : stream = other
    · simp [heq]
    · simp [heq]

theorem Kept.step (h : Kept reports c) {report : Report} (hbracketed : Bracketed reports report) :
    Kept (reports ++ [report]) (c.step report) := by
  cases report with
  | beginSection stream fieldSection =>
    refine ⟨nodup_onSlot h.keys _, fun other => (progress_begin fieldSection).trans ?_⟩
    rw [h.fields, inSection_concat, fieldsSince_concat]
    by_cases heq : stream = other
    · simp [begins, isBoundary, heq]
    · simp [begins, isBoundary, fieldOf, heq]
  | field stream name value =>
    have hprogress : progress stream c.events.partials = some (fieldsSince stream reports) := by
      rw [h.fields, if_pos (show inSection stream reports = true from hbracketed)]
    refine ⟨nodup_onSlot h.keys _, fun other => (progress_field hprogress (name, value)).trans ?_⟩
    rw [h.fields, inSection_concat, fieldsSince_concat]
    by_cases heq : stream = other
    · simp [begins, isBoundary, fieldOf, ← heq, show inSection stream reports = true from hbracketed]
    · simp [begins, isBoundary, fieldOf, heq]
  | endSection stream fieldSection =>
    exact h.without stream (partials_endSection h.keys stream fieldSection) (fun _ => rfl) (fun _ => rfl) fun _ => rfl
  | closed stream closed => exact h.without stream rfl (fun _ => rfl) (fun _ => rfl) fun _ => rfl
  | _ => exact h.apart rfl (fun _ => rfl) fun _ => rfl

theorem kept_reached (h : AtEach Bracketed reports) : Kept reports (reached reports) := by
  induction reports using List.reverseRecOn with
  | nil => exact ⟨List.nodup_nil, fun _ => rfl⟩
  | append_singleton reports report ih =>
    obtain ⟨hbefore, hlast⟩ := atEach_concat.mp h
    rw [reached_concat]
    exact (ih hbefore).step hlast

theorem observed_step (h : Kept reports (reached reports)) {report : Report} (hundisturbed : Undisturbed reports report) :
    ((reached reports).step report).events.observed = recorded reports report (reached reports).events.observed := by
  cases report with
  | endSection stream fieldSection =>
    have hprogress := h.fields stream
    show (Events.endSection _ _ _).observed = _ ++ (told _ _).toList
    rw [Events.endSection, told]
    cases hfind : (reached reports).events.partials.find? (·.1 = stream) with
    | none =>
      simp only [progress, hfind, Option.map_none] at hprogress
      split at hprogress
      · cases hprogress
      · rename_i hnot
        simp [hnot]
    | some entry =>
      simp only [progress, hfind, Option.map_some] at hprogress
      split at hprogress
      · rename_i hin
        simp [Events.push, hin, Option.some.inj hprogress]
      · cases hprogress
  | data stream memory address length =>
    show _ ++ [_] = _ ++ (some _).toList
    cases hinbound : (reached reports).inbound with
    | none => rfl
    | some parent => exact congrArg (_ ++ [Observation.data stream ·]) (viewOf_eq (hundisturbed parent hinbound) address length)
  | discardClosedSince checkpoint stream => exact discardLoop_eq stream _ checkpoint
  | setInbound | beginSection | field | drain => exact (List.append_nil _).symm
  | _ => rfl

end Step

theorem head_of_recorded {before : List Report} {report : Report} {observed : List Observation} {stream : StreamId}
    {fieldSection : FieldSection} {fields : List Field}
    (h : .head stream fieldSection fields ∈ recorded before report observed) :
    .head stream fieldSection fields ∈ observed ∨
      report = .endSection stream fieldSection ∧ inSection stream before = true ∧ fields = fieldsSince stream before := by
  cases report with
  | endSection other ending =>
    refine (List.mem_append.mp h).imp_right fun hmem => ?_
    rw [told] at hmem
    split at hmem
    · rename_i hin
      obtain ⟨rfl, rfl, rfl⟩ : stream = other ∧ fieldSection = ending ∧ fields = fieldsSince other before := by
        simpa using hmem
      exact ⟨rfl, hin, rfl⟩
    · cases hmem
  | discardClosedSince checkpoint other =>
    rcases List.mem_append.mp h with hmem | hmem
    · exact .inl (List.mem_of_mem_take hmem)
    · exact .inl (List.mem_of_mem_drop (List.mem_of_mem_filter hmem))
  | drain => cases h
  | _ =>
    refine .inl ((List.mem_append.mp h).resolve_right fun hmem => ?_)
    simp [told] at hmem

/-- After every report, of any streams in any order, what is observed is what was reported, and each head comes from
the fields that its own stream was reported to have since its latest section began. -/
theorem observations_faithful (reports : List Report) (hbracketed : AtEach Bracketed reports)
    (hundisturbed : AtEach Undisturbed reports) :
    AtEach (fun before report => (reached (before ++ [report])).events.observed =
      recorded before report (reached before).events.observed) reports ∧
    ∀ stream fieldSection fields, .head stream fieldSection fields ∈ (reached reports).events.observed →
      ∃ before after, reports = before ++ .endSection stream fieldSection :: after ∧ inSection stream before = true ∧
        fields = fieldsSince stream before := by
  have heach : AtEach (fun before report => (reached (before ++ [report])).events.observed =
      recorded before report (reached before).events.observed) reports := by
    rintro before report after rfl
    rw [reached_concat]
    exact observed_step (kept_reached hbracketed.left) (hundisturbed before report after rfl)
  refine ⟨heach, ?_⟩
  clear hbracketed hundisturbed
  induction reports using List.reverseRecOn with
  | nil => simp [reached]
  | append_singleton reports report ih =>
    obtain ⟨hbefore, hlast⟩ := atEach_concat.mp heach
    intro stream fieldSection fields hmem
    rw [hlast] at hmem
    rcases head_of_recorded hmem with hmem | ⟨rfl, hin, hfields⟩
    · obtain ⟨before, after, rfl, hfrom⟩ := ih hbefore stream fieldSection fields hmem
      exact ⟨before, after ++ [report], by simp, hfrom⟩
    · exact ⟨reports, [], rfl, hin, hfields⟩

/-! ## Two streams -/

def first : StreamId := ⟨0, QmuxStreams.zero_le_maxVarint⟩

def second : StreamId := ⟨4, QmuxStreams.four_le_maxVarint⟩

/-- Memory in which a buffer of `[7, 8, 9]` stands at the address 10. -/
def memory : Memory := fun address => if address < 10 then 0 else (address - 3).toUInt8

/-- The sections of two streams, one of which is cut off, and two chunks, one of which lies within the lent buffer. -/
def interleaved : List Report :=
  [.beginSection first .headers, .beginSection second .headers, .field first [1] [2], .field second [3] [4],
    .closed first ⟨none, none⟩, .beginSection first .headers, .field first [5] [6], .endSection second .headers,
    .setInbound (some ⟨10, [7, 8, 9]⟩), .data second memory 11 2, .data second memory 9 2, .endSection first .headers,
    .closed second ⟨none, none⟩]

/-- The close that the driver has made itself is discarded. -/
theorem observations_faithful_interleaved :
    (reached (interleaved ++ [.discardClosedSince 1 second])).events.observed =
      [.closed first ⟨none, none⟩, .head second .headers [([3], [4])], .data second [8, 9], .data second [0, 7],
        .head first .headers [([5], [6])]] := by
  have hbracketed : AtEach Bracketed (interleaved ++ [.discardClosedSince 1 second]) := by
    rw [atEach_iff_take]
    intro i hi
    have hbound : i < 14 := hi
    interval_cases i <;> first | exact True.intro | rfl
  have hundisturbed : AtEach Undisturbed (interleaved ++ [.discardClosedSince 1 second]) := by
    rw [atEach_iff_take]
    intro i hi
    have hbound : i < 14 := hi
    interval_cases i
    case «9» | «10» =>
      rintro _ ⟨⟩
      rfl
    all_goals exact True.intro
  obtain ⟨heach, -⟩ := observations_faithful _ hbracketed hundisturbed
  exact (heach interleaved (.discardClosedSince 1 second) [] rfl).trans (by decide)

end Ngnet.Http3Observations
