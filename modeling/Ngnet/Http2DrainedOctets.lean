import Mathlib.Data.List.Forall2
import Ngnet.Http2Drains

/-!
# What the drains of an HTTP/2 connection write

Each of the four drains writes the octets of its pass, whatever the calls of `send_into` returned and however the
transport takes what it is offered. It offers no empty region and no more regions than it may, and wherever it ends
the sink and the lists of regions are empty.
-/

namespace Ngnet.Http2DrainedOctets
open QmuxVarints StatefulPrograms ShortWrites Http2Heads Http2Drains

variable {τ α : Type} [TransportWrite τ] {s t u : Draining τ} {cap : ℕ} {goal rest : Bytes} {F : Prop}

/-! ## Offers -/

/-- No region is empty, and there are at most `cap` of them. -/
def Offers (cap : ℕ) (offer : List Bytes) : Prop := offer.length ≤ cap ∧ ∀ region ∈ offer, region ≠ []

/-- From `s` to `t` only the writer has moved on: the transport has accepted `octets`. -/
structure Advanced (cap : ℕ) (s t : Draining τ) (octets : Bytes) : Prop where
  accepted : t.writer.accepted = s.writer.accepted ++ octets
  offers : ∃ more, t.writer.offers = s.writer.offers ++ more ∧ ∀ offer ∈ more, Offers cap offer
  buffers : t.buffers = s.buffers
  runStart : t.runStart = s.runStart
  regioned : t.regioned = s.regioned

omit [TransportWrite τ] in
theorem Advanced.refl : Advanced cap s s [] := ⟨by simp, ⟨[], by simp⟩, rfl, rfl, rfl⟩

omit [TransportWrite τ] in
theorem Advanced.trans {first second : Bytes} (h : Advanced cap s t first) (h' : Advanced cap t u second) :
    Advanced cap s u (first ++ second) := by
  obtain ⟨more, hmore, hfine⟩ := h.offers
  obtain ⟨more', hmore', hfine'⟩ := h'.offers
  refine ⟨?_, ⟨more ++ more', ?_, ?_⟩, h'.buffers.trans h.buffers, h'.runStart.trans h.runStart,
    h'.regioned.trans h.regioned⟩
  · rw [h'.accepted, h.accepted, List.append_assoc]
  · rw [hmore', hmore, List.append_assoc]
  · intro offer hmem
    rcases List.mem_append.mp hmem with hmem | hmem
    · exact hfine offer hmem
    · exact hfine' offer hmem

/-- The answer to an offer: as many of its octets were accepted as it says, and if the transport accepts, some. -/
def Answers (cap : ℕ) (octets : Bytes) (from' : ℕ) (s : Draining τ) (answer : Except Unit ℕ) (t : Draining τ) : Prop :=
  ∃ n ≤ octets.length, Advanced cap s t (octets.take n) ∧ (∀ k, answer = .ok k → k = from' + n) ∧
    (Accepting τ → 0 < from' ∨ octets ≠ [] → ∃ k, 0 < k ∧ answer = .ok k)

theorem calling_ensures {native : List Bytes → τ → Except Unit ℕ × τ} {offer : List Bytes}
    (hle : ∀ io n, (native offer io).1 = .ok n → n ≤ offer.flatten.length)
    (hfull : Accepting τ → offer.flatten ≠ [] → ∀ io, ∃ n, 0 < n ∧ (native offer io).1 = .ok n)
    (hoffer : Offers cap offer) :
    Ensures (calling native offer) s (Answers cap offer.flatten 0 s) fun _ _ => False := by
  have hmore : ∀ o ∈ [offer], Offers cap o := by
    intro o ho
    rwa [List.mem_singleton.mp ho]
  unfold Ensures calling
  dsimp only
  unfold Writer.call
  rcases hcall : native offer s.writer.io with ⟨answer, io⟩
  cases answer with
  | error e =>
    refine ⟨0, Nat.zero_le _, ⟨by simp, ⟨[offer], rfl, hmore⟩, rfl, rfl, rfl⟩, by simp, ?_⟩
    intro haccepts hne
    obtain ⟨n, -, hn⟩ := hfull haccepts (by simpa using hne) s.writer.io
    rw [hcall] at hn
    cases hn
  | ok n =>
    refine ⟨n, hle s.writer.io n (by rw [hcall]), ⟨rfl, ⟨[offer], rfl, hmore⟩, rfl, rfl, rfl⟩, ?_, ?_⟩
    · intro k hk
      cases hk
      simp
    · intro haccepts hne
      obtain ⟨k, hk, hn⟩ := hfull haccepts (by simpa using hne) s.writer.io
      rw [hcall] at hn
      cases hn
      exact ⟨n, hk, rfl⟩

theorem writeOne_ensures {data : Bytes} (hdata : data ≠ []) (hcap : 1 ≤ cap) :
    Ensures (writeOne data) s (Answers cap data 0 s) fun _ _ => False := by
  have h : Ensures (writeOne data) s (Answers cap [data].flatten 0 s) fun _ _ => False :=
    calling_ensures (by simpa using TransportWrite.write_le data) (fun haccepts _ io => haccepts.write data io hdata)
      ⟨hcap, by simpa using hdata⟩
  simpa using h

theorem emulateGathering_ensures (hcap : 1 ≤ cap) (regions : List Bytes) :
    ∀ (total : ℕ) (s : Draining τ), (∀ region ∈ regions, region ≠ []) →
      Ensures (emulateGathering regions total) s (Answers cap regions.flatten total s) fun _ _ => False := by
  induction regions with
  | nil =>
    intro total s _
    refine ensures_pure.mpr ⟨0, Nat.zero_le _, .refl, ?_, ?_⟩
    · intro k hk
      cases hk
      rfl
    · intro _ htotal
      exact ⟨total, by simpa using htotal, rfl⟩
  | cons region rest ih =>
    intro total s h
    have hregion : region ≠ [] := h region (by simp)
    rw [emulateGathering, if_neg hregion]
    refine ensures_bind.mpr ((writeOne_ensures hregion hcap).mono ?_ fun _ _ => id)
    rintro answer t ⟨n, hn, hadv, hanswer, hsome⟩
    have htake : region.take n = (region ++ rest.flatten).take n := by
      rw [List.take_append_of_le_length hn]
    cases answer with
    | error e =>
      refine ensures_pure.mpr ⟨n, ?_, htake ▸ hadv, by simp, ?_⟩
      · simp only [List.flatten_cons, List.length_append]
        omega
      · intro haccepts _
        obtain ⟨k, -, hk⟩ := hsome haccepts (.inr hregion)
        cases hk
    | ok written =>
      obtain rfl : written = n := by simpa using hanswer written rfl
      have hwritten : Accepting τ → 0 < written := by
        intro haccepts
        obtain ⟨k, hk, heq⟩ := hsome haccepts (.inr hregion)
        cases heq
        exact hk
      dsimp only
      split
      · refine ensures_pure.mpr ⟨written, ?_, htake ▸ hadv, ?_, ?_⟩
        · simp only [List.flatten_cons, List.length_append]
          omega
        · intro k hk
          cases hk
          rfl
        · intro haccepts _
          exact ⟨_, Nat.add_pos_right _ (hwritten haccepts), rfl⟩
      · -- the whole region was taken, and the next one is offered
        have hwhole : written = region.length := by omega
        refine (ih (total + written) t fun r hr => h r (List.mem_cons_of_mem _ hr)).mono ?_ fun _ _ => id
        rintro answer u ⟨m, hm, hadv', hanswer', hsome'⟩
        refine ⟨written + m, ?_, ?_, ?_, ?_⟩
        · simp only [List.flatten_cons, List.length_append]
          omega
        · have heq : (region ++ rest.flatten).take (written + m) = region.take written ++ rest.flatten.take m := by
            rw [hwhole, List.take_length_add_append, List.take_length]
          rw [List.flatten_cons, heq]
          exact hadv.trans hadv'
        · intro k hk
          rw [hanswer' k hk]
          omega
        · intro haccepts _
          exact hsome' haccepts (.inl (Nat.add_pos_right _ (hwritten haccepts)))

theorem writeVectored_ensures {offer : List Bytes} (hoffer : Offers cap offer) (hcap : 1 ≤ cap) :
    Ensures (writeVectored offer) s (Answers cap offer.flatten 0 s) fun _ _ => False := by
  unfold writeVectored
  split
  · next native hnative =>
    exact calling_ensures (TransportWrite.gather_le native hnative offer)
      (fun haccepts hne io => haccepts.gather native hnative offer io hne) hoffer
  · refine ensures_modify.mpr ((emulateGathering_ensures hcap offer 0 _ hoffer.2).mono ?_ fun _ _ => id)
    rintro answer t ⟨n, hn, hadv, hrest⟩
    refine ⟨n, hn, ?_, hrest⟩
    have hstart : Advanced cap s { s with writer := { s.writer with offers := s.writer.offers ++ [offer] } } [] :=
      ⟨by simp, ⟨[offer], rfl, by simpa using hoffer⟩, rfl, rfl, rfl⟩
    exact hstart.trans hadv

/-! ## Resuming a short write -/

variable {slices : List Bytes}

theorem offerFrom_zero (h : ∀ slice ∈ slices, slice ≠ []) : offerFrom 0 slices = slices := by
  induction slices with
  | nil => rfl
  | cons slice rest ih =>
    have hslice : ¬ slice.length ≤ 0 := by simpa using h slice (by simp)
    rw [offerFrom, if_neg hslice, ih fun r hr => h r (List.mem_cons_of_mem _ hr), List.drop_zero]

theorem offerFrom_eq :
    ∀ {n}, (∀ slice ∈ slices, slice ≠ []) → offerFrom n slices = leftOver n slices := by
  induction slices with
  | nil => intro n _; rfl
  | cons slice rest ih =>
    intro n h
    have hrest : ∀ r ∈ rest, r ≠ [] := fun r hr => h r (List.mem_cons_of_mem _ hr)
    rw [offerFrom, leftOver, ih hrest, offerFrom_zero hrest]

theorem writeGathering_ensures (hslices : Offers (maxRegions + 1) slices) :
    ∀ (fuel done : ℕ) (s : Draining τ), done ≤ slices.flatten.length → slices.flatten.length ≤ done + fuel →
      Ensures (writeGathering slices fuel done) s
        (fun result t => ∃ n, done + n ≤ slices.flatten.length ∧
          Advanced (maxRegions + 1) s t ((slices.flatten.drop done).take n) ∧
          (result = .ok () → done + n = slices.flatten.length) ∧ (Accepting τ → result = .ok ()))
        fun _ _ => False := by
  intro fuel
  induction fuel with
  | zero =>
    intro done s hdone hfuel
    rw [writeGathering, if_pos (by omega)]
    exact ensures_pure.mpr ⟨0, by omega, .refl, fun _ => by omega, fun _ => rfl⟩
  | succ fuel ih =>
    intro done s hdone hfuel
    rw [writeGathering]
    split
    · exact ensures_pure.mpr ⟨0, by omega, .refl, fun _ => by omega, fun _ => rfl⟩
    · next hmore =>
      have hoffer : Offers (maxRegions + 1) (offerFrom done slices) := by
        rw [offerFrom_eq hslices.2]
        exact ⟨Nat.le_trans (length_leftOver_le _ _) hslices.1, leftOver_ne_nil hslices.2⟩
      have hflat : (offerFrom done slices).flatten = slices.flatten.drop done := by
        rw [offerFrom_eq hslices.2, flatten_leftOver]
      have hne : slices.flatten.drop done ≠ [] := by
        simp only [ne_eq, List.drop_eq_nil_iff]
        omega
      rw [if_neg (by have := hoffer.1; omega)]
      refine ensures_bind.mpr ((writeVectored_ensures hoffer (by simp)).mono ?_ fun _ _ => id)
      rintro answer t ⟨n, hn, hadv, hanswer, hsome⟩
      rw [hflat, List.length_drop] at hn
      rw [hflat] at hadv
      match answer with
      | .error e =>
        refine ensures_pure.mpr ⟨n, by omega, hadv, by simp, ?_⟩
        intro haccepts
        obtain ⟨k, -, hk⟩ := hsome haccepts (.inr (hflat ▸ hne))
        cases hk
      | .ok 0 =>
        refine ensures_pure.mpr ⟨n, by omega, hadv, by simp, ?_⟩
        intro haccepts
        obtain ⟨k, hpos, hk⟩ := hsome haccepts (.inr (hflat ▸ hne))
        cases hk
        exact absurd hpos (Nat.lt_irrefl 0)
      | .ok (written + 1) =>
        obtain rfl : written + 1 = n := by simpa using hanswer _ rfl
        dsimp only
        refine (ih _ t (by omega) (by omega)).mono ?_ fun _ _ => id
        rintro result u ⟨m, hm, hadv', hwhole, haccepting⟩
        refine ⟨written + 1 + m, by omega, ?_, fun h => by have := hwhole h; omega, haccepting⟩
        rw [List.take_add, List.drop_drop]
        exact hadv.trans hadv'

/-! ## Descriptors -/

/-- The descriptors of the list name these slices, one each. -/
def Names (b : WriteBuffers) (slices : List Bytes) : Prop :=
  List.Forall₂ (fun region slice => region.slice b.gathered b.sendRecords = some slice) b.regions slices

variable {records : List SendRecord}

theorem fillSlots_eq {gathered : Bytes} {regions : List Region}
    (h : List.Forall₂ (fun region slice => Region.slice gathered records region = some slice) regions slices) :
    ∀ slots : List Bytes, slots.length + regions.length ≤ maxRegions + 1 →
      fillSlots gathered records regions slots = some (slots ++ slices.filter (!·.isEmpty)) := by
  induction h with
  | nil => intro slots _; simp [fillSlots]
  | @cons region slice regions slices hslice _ ih =>
    intro slots hroom
    rw [List.length_cons] at hroom
    rw [fillSlots, hslice, Option.bind_eq_bind, Option.bind_some]
    by_cases hempty : slice = []
    · rw [if_pos hempty, ih slots (by omega), List.filter_cons_of_neg (by simpa using hempty)]
    · rw [if_neg hempty, fillSlot, if_pos (by omega), Option.bind_eq_bind, Option.bind_some, ih _ (by simp; omega),
        List.filter_cons_of_pos (by simpa using hempty), List.append_assoc, List.singleton_append]

variable {b : WriteBuffers}

theorem materialise_eq (h : Names b slices)
    (hroom : b.regions.length ≤ maxRegions) (tail : Bytes) :
    materialise b tail = some ((slices ++ [tail]).filter (!·.isEmpty)) := by
  have hlen : slices.length ≤ maxRegions := h.length_eq ▸ hroom
  rw [materialise, fillSlots_eq h [] (by simp; omega), Option.bind_eq_bind, Option.bind_some, List.nil_append,
    List.filter_append]
  by_cases htail : tail = []
  · simp [htail]
  · have hfilter : (slices.filter (!·.isEmpty)).length ≤ slices.length := List.length_filter_le _ _
    rw [if_neg htail, fillSlot, if_pos (by omega), List.filter_cons_of_pos (by simpa using htail), List.filter_nil]

theorem offers_slots (h : slices.length ≤ maxRegions) (tail : Bytes) :
    Offers (maxRegions + 1) ((slices ++ [tail]).filter (!·.isEmpty)) := by
  constructor
  · refine Nat.le_trans (List.length_filter_le _ _) ?_
    simpa using h
  · intro slice hmem
    simpa using (List.mem_filter.mp hmem).2

theorem slice_append {region : Region} {gathered more slice : Bytes} {records' : List SendRecord}
    (h : region.slice gathered records = some slice) :
    region.slice (gathered ++ more) (records ++ records') = some slice := by
  cases region with
  | gathered start stop =>
    simp only [Region.slice, Option.ite_none_right_eq_some, List.length_append] at h ⊢
    obtain ⟨⟨hstart, hstop⟩, hslice⟩ := h
    refine ⟨⟨hstart, by omega⟩, ?_⟩
    rwa [List.take_append_of_le_length hstop]
  | header index =>
    simp only [Region.slice, Option.map_eq_some_iff] at h ⊢
    obtain ⟨record, hrecord, hslice⟩ := h
    exact ⟨record, by rw [List.getElem?_append_left (List.getElem?_eq_some_iff.mp hrecord).1, hrecord], hslice⟩
  | payload index =>
    simp only [Region.slice, Option.map_eq_some_iff] at h ⊢
    obtain ⟨record, hrecord, hslice⟩ := h
    exact ⟨record, by rw [List.getElem?_append_left (List.getElem?_eq_some_iff.mp hrecord).1, hrecord], hslice⟩

theorem Names.append (h : Names b slices) (more : Bytes)
    (records : List SendRecord) :
    Names { b with gathered := b.gathered ++ more, sendRecords := b.sendRecords ++ records } slices :=
  List.Forall₂.imp (fun _ _ => slice_append) h

theorem Names.push {more : List Bytes} {regions : List Region} (h : Names b slices)
    (hmore : List.Forall₂ (fun region slice => region.slice b.gathered b.sendRecords = some slice) regions more) :
    Names { b with regions := b.regions ++ regions } (slices ++ more) :=
  List.rel_append h hmore

/-! ## Flushing borrowed regions -/

/-- What every end of a drain leaves empty. -/
structure Clean (b : WriteBuffers) : Prop where
  sendRecords : b.sendRecords = []
  regions : b.regions = []
  owned : b.owned = []

/-- How a drain ends that does not return: with an error, nothing left behind, and a beginning of the octets written.
`F` is what stops it if the transport accepts whatever it is offered. -/
structure Stopped (cap : ℕ) (goal : Bytes) (F : Prop) (fault : Halt Fault) (t : Draining τ) : Prop where
  returned : ∃ error, fault = .failed (.returned error)
  clean : Clean t.buffers
  wrote : t.writer.accepted <+: goal
  offers : ∀ offer ∈ t.writer.offers, Offers cap offer
  fails : Accepting τ → F

/-- One more than nothing if there is an open run. -/
def openRun (s : Draining τ) : ℕ := if s.runStart < s.buffers.gathered.length then 1 else 0

omit [TransportWrite τ] in
theorem drop_of_not_open (h : ¬ s.runStart < s.buffers.gathered.length) : s.buffers.gathered.drop s.runStart = [] :=
  List.drop_eq_nil_of_le (by omega)

omit [TransportWrite τ] in
theorem closeRun_names (start : ℕ) (h : Names s.buffers slices) :
    ∃ slices', Names (s.closeRun start).buffers slices' ∧
      slices'.flatten = slices.flatten ++ s.buffers.gathered.drop s.runStart ∧
      (s.closeRun start).buffers.regions.length = s.buffers.regions.length + openRun s := by
  unfold Draining.closeRun openRun
  split
  · next hopen =>
    refine ⟨slices ++ [s.buffers.gathered.drop s.runStart], h.push (.cons ?_ .nil), by simp, by simp⟩
    simp only [Region.slice, Option.ite_none_right_eq_some, List.take_length]
    exact ⟨⟨by omega, Nat.le_refl _⟩, trivial⟩
  · next hclosed => exact ⟨slices, h, by rw [drop_of_not_open hclosed, List.append_nil], rfl⟩

omit [TransportWrite τ] in
theorem closeRun_same (start : ℕ) :
    (s.closeRun start).writer = s.writer ∧ (s.closeRun start).regioned = s.regioned ∧
      (s.closeRun start).buffers = { s.buffers with regions := (s.closeRun start).buffers.regions } := by
  unfold Draining.closeRun
  split <;> exact ⟨rfl, rfl, rfl⟩

/-- What a flush leaves: all it named is written, behind it the tail. -/
structure Flushed (s : Draining τ) (octets : Bytes) (t : Draining τ) : Prop where
  accepted : t.writer.accepted = s.writer.accepted ++ octets
  offers : ∀ offer ∈ t.writer.offers, Offers (maxRegions + 1) offer
  buffers : t.buffers =
    { s.buffers with gathered := [], sendRecords := s.buffers.sendRecords.drop s.regioned, regions := [] }
  runStart : t.runStart = 0
  regioned : t.regioned = 0

theorem flushRegions_ensures {tail : Bytes} (hnames : Names s.buffers slices)
    (hroom : s.buffers.regions.length + openRun s ≤ maxRegions) (howned : s.buffers.owned = [])
    (hoffers : ∀ offer ∈ s.writer.offers, Offers (maxRegions + 1) offer)
    (hgoal : s.writer.accepted ++ (slices.flatten ++ s.buffers.gathered.drop s.runStart ++ tail) <+: goal) :
    Ensures (flushRegions tail) s
      (fun _ => Flushed s (slices.flatten ++ s.buffers.gathered.drop s.runStart ++ tail))
      (Stopped (maxRegions + 1) goal F) := by
  obtain ⟨slices', hnames', hflat, hlen⟩ := closeRun_names s.runStart hnames
  obtain ⟨hwriter, hregioned, hbuffers⟩ := closeRun_same (s := s) s.runStart
  have hfits : (s.closeRun s.runStart).buffers.regions.length ≤ maxRegions := hlen ▸ hroom
  have hslots := offers_slots (hnames'.length_eq ▸ hfits) tail
  have hoctets : ((slices' ++ [tail]).filter (!·.isEmpty)).flatten =
      slices.flatten ++ s.buffers.gathered.drop s.runStart ++ tail := by
    rw [List.flatten_filter_not_isEmpty, List.flatten_append, hflat, List.flatten_singleton]
  rw [flushRegions]
  refine ensures_modify.mpr ?_
  rw [debugAssert]
  simp only [bind_assoc]
  refine ensures_get.mpr ?_
  have hassert : (s.closeRun s.runStart).buffers.regions.length + (if tail = [] then 0 else 1) ≤ maxRegions + 1 := by
    split <;> omega
  rw [if_neg (by simpa using hassert), pure_bind]
  refine ensures_get.mpr ?_
  rw [materialise_eq hnames' hfits]
  dsimp only
  refine ensures_bind.mpr ((writeGathering_ensures hslots _ 0 _ (Nat.zero_le _) (by omega)).mono ?_
    fun _ _ => False.elim)
  rintro result t ⟨n, -, hadv, hwhole, haccepting⟩
  rw [List.drop_zero, hoctets] at hadv
  rw [hoctets] at hwhole
  have haccepted := hadv.accepted
  have hmore : ∀ offer ∈ t.writer.offers, Offers (maxRegions + 1) offer := by
    obtain ⟨more, hmore, hfine⟩ := hadv.offers
    intro offer hmem
    rw [hmore, hwriter] at hmem
    exact (List.mem_append.mp hmem).elim (hoffers offer) (hfine offer)
  rw [hwriter] at haccepted
  cases result with
  | error error =>
    refine ensures_modify.mpr (ensures_fail.mpr ⟨⟨error, rfl⟩, ⟨rfl, rfl, ?_⟩, ?_, hmore, ?_⟩)
    · rw [hadv.buffers, hbuffers]
      exact howned
    · rw [haccepted]
      refine List.IsPrefix.trans ?_ hgoal
      rw [List.prefix_append_right_inj]
      exact List.take_prefix _ _
    · intro haccepts
      cases haccepting haccepts
  | ok _ =>
    refine (ensures_of_ok modify_apply).mpr ⟨?_, hmore, ?_, rfl, rfl⟩
    · rw [haccepted, List.take_of_length_le]
      have := hwhole rfl
      omega
    · show { t.buffers with gathered := [], sendRecords := t.buffers.sendRecords.drop t.regioned, regions := [] } = _
      rw [hadv.buffers, hadv.regioned, hregioned, hbuffers]

/-! ## The gathered drain of borrowed regions -/

theorem recordOctets_append (records records' : List SendRecord) :
    recordOctets (records ++ records') = recordOctets records ++ recordOctets records' := List.flatMap_append

/-- The invariant of the drain: what is accepted, what the descriptors name, the open run, the records that have no
descriptors yet and what is still to come make up the octets to be written, and the list has a place for the run. -/
structure Gathers (goal rest : Bytes) (s : Draining τ) : Prop where
  offers : ∀ offer ∈ s.writer.offers, Offers (maxRegions + 1) offer
  owned : s.buffers.owned = []
  start_le : s.runStart ≤ s.buffers.gathered.length
  regioned_le : s.regioned ≤ s.buffers.sendRecords.length
  described : s.regioned ≤ s.buffers.regions.length
  room : s.buffers.regions.length + openRun s ≤ maxRegions
  wrote : ∃ slices, Names s.buffers slices ∧ s.writer.accepted ++ slices.flatten ++
    s.buffers.gathered.drop s.runStart ++ recordOctets (s.buffers.sendRecords.drop s.regioned) ++ rest = goal

/-- All records that were deposited have descriptors. -/
def AllNamed (s : Draining τ) : Prop := s.regioned = s.buffers.sendRecords.length

omit [TransportWrite τ] in
theorem AllNamed.drop (h : AllNamed s) : s.buffers.sendRecords.drop s.regioned = [] := by rw [h, List.drop_length]

omit [TransportWrite τ] in
theorem drop_of_closed (h : openRun s = 0) : s.buffers.gathered.drop s.runStart = [] := by
  rw [openRun] at h
  split at h
  · cases h
  · next hclosed => exact drop_of_not_open hclosed

theorem deposit_gathers (h : Gathers goal (recordOctets records ++ rest) s) :
    Ensures (deposit records) s (fun _ => Gathers goal rest) (Stopped (maxRegions + 1) goal F) := by
  obtain ⟨slices, hnames, hgoal⟩ := h.wrote
  refine (ensures_of_ok modify_apply).mpr ⟨h.offers, h.owned, h.start_le, ?_, h.described, h.room, slices, ?_, ?_⟩
  · exact Nat.le_trans h.regioned_le (by simp)
  · simpa using hnames.append [] records
  · dsimp only
    rw [List.drop_append_of_le_length h.regioned_le, recordOctets_append]
    simpa only [List.append_assoc] using hgoal

theorem flushRegions_gathers (h : Gathers goal rest s) :
    Ensures (flushRegions []) s
      (fun _ t => Gathers goal rest t ∧ t.buffers.regions = [] ∧ openRun t = 0 ∧ t.regioned = 0 ∧
        t.buffers.sendRecords.length - t.regioned = s.buffers.sendRecords.length - s.regioned)
      (Stopped (maxRegions + 1) goal F) := by
  obtain ⟨slices, hnames, hgoal⟩ := h.wrote
  refine (flushRegions_ensures hnames h.room h.owned h.offers ?_).mono ?_ fun _ _ => id
  · rw [← hgoal, List.append_nil]
    simp only [List.append_assoc]
    exact ⟨_, by simp only [List.append_assoc]; rfl⟩
  · intro _ t ht
    have hbuffers := ht.buffers
    have hgathered : t.buffers.gathered = [] := by rw [hbuffers]
    have hregions : t.buffers.regions = [] := by rw [hbuffers]
    have hopen : openRun t = 0 := by
      rw [openRun, hgathered]
      simp
    refine ⟨⟨ht.offers, ?_, ?_, ?_, ?_, ?_, [], ?_, ?_⟩, hregions, hopen, ht.regioned, ?_⟩
    · rw [hbuffers]
      exact h.owned
    · rw [ht.runStart]
      exact Nat.zero_le _
    · rw [ht.regioned]
      exact Nat.zero_le _
    · rw [ht.regioned]
      exact Nat.zero_le _
    · rw [hregions, hopen]
      simp
    · rw [Names, hregions]
      exact .nil
    · rw [ht.accepted, ht.runStart, ht.regioned, hbuffers, ← hgoal]
      simp
    · rw [ht.regioned, hbuffers]
      simp

variable {block : Bytes}

theorem flushRegions_block (h : Gathers goal (block ++ rest) s) (hall : AllNamed s) :
    Ensures (flushRegions block) s (fun _ t => Gathers goal rest t ∧ AllNamed t)
      (Stopped (maxRegions + 1) goal F) := by
  obtain ⟨slices, hnames, hgoal⟩ := h.wrote
  rw [hall.drop] at hgoal
  refine (flushRegions_ensures hnames h.room h.owned h.offers ?_).mono ?_ fun _ _ => id
  · rw [← hgoal]
    simp only [List.append_assoc]
    exact ⟨rest, by simp [recordOctets]⟩
  · intro _ t ht
    have hbuffers := ht.buffers
    have hgathered : t.buffers.gathered = [] := by rw [hbuffers]
    have hregions : t.buffers.regions = [] := by rw [hbuffers]
    have hrecords : t.buffers.sendRecords = [] := by
      rw [hbuffers]
      exact hall.drop
    have hopen : openRun t = 0 := by
      rw [openRun, hgathered]
      simp
    refine ⟨⟨ht.offers, ?_, ?_, ?_, ?_, ?_, [], ?_, ?_⟩, ?_⟩
    · rw [hbuffers]
      exact h.owned
    · rw [ht.runStart]
      exact Nat.zero_le _
    · rw [ht.regioned]
      exact Nat.zero_le _
    · rw [ht.regioned]
      exact Nat.zero_le _
    · rw [hregions, hopen]
      simp
    · rw [Names, hregions]
      exact .nil
    · rw [ht.accepted, hgathered, hrecords, ← hgoal]
      simp [recordOctets]
    · rw [AllNamed, ht.regioned, hrecords]
      rfl

omit [TransportWrite τ] in
theorem nameRecord_gathers (h : Gathers goal rest s) (hclosed : openRun s = 0)
    (hroom : s.buffers.regions.length + 2 ≤ maxRegions) (hmore : s.regioned < s.buffers.sendRecords.length) :
    Gathers goal rest { s with
      buffers := { s.buffers with regions := s.buffers.regions ++ [.header s.regioned, .payload s.regioned] },
      regioned := s.regioned + 1 } := by
  obtain ⟨slices, hnames, hgoal⟩ := h.wrote
  have hget : s.buffers.sendRecords[s.regioned]? = some s.buffers.sendRecords[s.regioned] :=
    List.getElem?_eq_getElem hmore
  refine ⟨h.offers, h.owned, h.start_le, hmore, ?_, ?_,
    slices ++ [s.buffers.sendRecords[s.regioned].header, s.buffers.sendRecords[s.regioned].payload], ?_, ?_⟩
  · have hdescribed := h.described
    rw [List.length_append]
    show s.regioned + 1 ≤ s.buffers.regions.length + 2
    omega
  · rw [List.length_append]
    show s.buffers.regions.length + 2 + openRun s ≤ maxRegions
    omega
  · refine hnames.push (.cons ?_ (.cons ?_ .nil))
    · simp [Region.slice, hget]
    · simp [Region.slice, hget]
  · have hnext : recordOctets (s.buffers.sendRecords.drop s.regioned) =
        s.buffers.sendRecords[s.regioned].header ++ s.buffers.sendRecords[s.regioned].payload ++
          recordOctets (s.buffers.sendRecords.drop (s.regioned + 1)) := by
      rw [List.drop_eq_getElem_cons hmore]
      rfl
    rw [drop_of_closed hclosed, hnext] at hgoal
    show s.writer.accepted ++ _ ++ s.buffers.gathered.drop s.runStart ++ _ ++ rest = goal
    rw [drop_of_closed hclosed, ← hgoal]
    simp

theorem nameRecords_ensures (fuel : ℕ) :
    ∀ s : Draining τ, Gathers goal rest s → openRun s = 0 → s.buffers.sendRecords.length ≤ s.regioned + fuel →
      Ensures (nameRecords fuel) s (fun _ t => Gathers goal rest t ∧ AllNamed t) (Stopped (maxRegions + 1) goal F) := by
  induction fuel with
  | zero =>
    intro s h _ hfuel
    refine ensures_get.mpr ?_
    rw [if_neg (by omega)]
    exact ensures_pure.mpr ⟨h, Nat.le_antisymm h.regioned_le hfuel⟩
  | succ fuel ih =>
    intro s h hclosed hfuel
    rw [nameRecords]
    refine ensures_get.mpr ?_
    split
    · next hmore =>
      split
      · refine ensures_bind.mpr ((flushRegions_gathers h).mono ?_ fun _ _ => id)
        rintro _ t ⟨ht, hregions, hopen, -, hleft⟩
        refine ensures_modify.mpr (ih _ (nameRecord_gathers ht hopen ?_ (by omega)) hopen ?_)
        · rw [hregions]
          decide
        · show t.buffers.sendRecords.length ≤ t.regioned + 1 + fuel
          omega
      · next hroom =>
        dsimp only
        refine ensures_modify.mpr (ih _ (nameRecord_gathers h hclosed (by omega) hmore) hclosed ?_)
        show s.buffers.sendRecords.length ≤ s.regioned + 1 + fuel
        omega
    · next hdone => exact ensures_pure.mpr ⟨h, Nat.le_antisymm h.regioned_le (by omega)⟩

omit [TransportWrite τ] in
theorem closeRun_gathers (h : Gathers goal rest s) :
    Gathers goal rest (s.closeRun s.buffers.gathered.length) ∧
      openRun (s.closeRun s.buffers.gathered.length) = 0 := by
  obtain ⟨slices, hnames, hgoal⟩ := h.wrote
  obtain ⟨slices', hnames', hflat, hlen⟩ := closeRun_names s.buffers.gathered.length hnames
  obtain ⟨hwriter, hregioned, hbuffers⟩ := closeRun_same (s := s) s.buffers.gathered.length
  have hrecords : (s.closeRun s.buffers.gathered.length).buffers.sendRecords = s.buffers.sendRecords := by
    rw [hbuffers]
  have hgathered : (s.closeRun s.buffers.gathered.length).buffers.gathered = s.buffers.gathered := by rw [hbuffers]
  have hstart : (s.closeRun s.buffers.gathered.length).runStart = s.buffers.gathered.length := by
    unfold Draining.closeRun
    split
    · rfl
    · exact Nat.le_antisymm h.start_le (by omega)
  have hclosed : openRun (s.closeRun s.buffers.gathered.length) = 0 := by
    rw [openRun, hstart, hgathered, if_neg (Nat.lt_irrefl _)]
  refine ⟨⟨?_, ?_, ?_, ?_, ?_, ?_, slices', hnames', ?_⟩, hclosed⟩
  · rw [hwriter]
    exact h.offers
  · rw [hbuffers]
    exact h.owned
  · rw [hstart, hgathered]
  · rw [hregioned, hrecords]
    exact h.regioned_le
  · rw [hregioned, hlen]
    exact Nat.le_trans h.described (Nat.le_add_right _ _)
  · rw [hclosed, hlen]
    exact h.room
  · rw [hwriter, hregioned, hrecords, drop_of_closed hclosed, hflat, ← hgoal]
    simp

theorem takeRecords_ensures (h : Gathers goal rest s) :
    Ensures takeRecords s (fun _ t => Gathers goal rest t ∧ AllNamed t) (Stopped (maxRegions + 1) goal F) := by
  rw [takeRecords]
  refine ensures_get.mpr ?_
  split
  · have hroom : ¬ (s.runStart < s.buffers.gathered.length ∧ maxRegions ≤ s.buffers.regions.length) := by
      rintro ⟨hopen, hfull⟩
      have := h.room
      rw [openRun, if_pos hopen] at this
      omega
    rw [if_neg hroom]
    obtain ⟨hclosed, hopen⟩ := closeRun_gathers h
    obtain ⟨-, hregioned, hbuffers⟩ := closeRun_same (s := s) s.buffers.gathered.length
    refine ensures_modify.mpr (nameRecords_ensures _ _ hclosed hopen ?_)
    have hle := h.regioned_le
    rw [hregioned, hbuffers]
    dsimp only
    omega
  · next hdone => exact ensures_pure.mpr ⟨h, Nat.le_antisymm h.regioned_le (by omega)⟩

omit [TransportWrite τ] in
theorem extendRun_gathers (h : Gathers goal (block ++ rest) s) (hall : AllNamed s)
    (hroom : s.buffers.regions.length + 1 ≤ maxRegions) :
    Gathers goal rest { s with buffers := { s.buffers with gathered := s.buffers.gathered ++ block } } := by
  obtain ⟨slices, hnames, hgoal⟩ := h.wrote
  refine ⟨h.offers, h.owned, Nat.le_trans h.start_le (by simp), h.regioned_le, h.described, ?_, slices, ?_, ?_⟩
  · refine Nat.le_trans (Nat.add_le_add_left ?_ _) hroom
    unfold openRun
    split <;> omega
  · simpa using hnames.append block []
  · dsimp only
    rw [hall.drop] at hgoal ⊢
    rw [List.drop_append_of_le_length h.start_le, ← hgoal]
    simp [recordOctets]

theorem takeBlock_ensures (h : Gathers goal (block ++ rest) s) (hall : AllNamed s) :
    Ensures (takeBlock block) s (fun _ t => Gathers goal rest t ∧ AllNamed t) (Stopped (maxRegions + 1) goal F) := by
  rw [takeBlock]
  split
  · refine ensures_get.mpr ?_
    split
    · refine ensures_bind.mpr ((flushRegions_gathers h).mono ?_ fun _ _ => id)
      rintro _ t ⟨ht, hregions, -, -, hleft⟩
      have hall' : AllNamed t := by
        have := ht.regioned_le
        rw [AllNamed] at hall ⊢
        omega
      refine (ensures_of_ok modify_apply).mpr ⟨extendRun_gathers ht hall' ?_, hall'⟩
      rw [hregions]
      decide
    · next hroom =>
      dsimp only
      refine (ensures_of_ok modify_apply).mpr ⟨extendRun_gathers h hall ?_, hall⟩
      -- either the list is not full, or there is a run, which has a place in it
      have hopen := h.room
      have hstart := h.start_le
      unfold openRun at hopen
      split at hopen <;> omega
  · exact flushRegions_block h hall

theorem gathering_ensures (pass : Pass) (hF : pass.hasFailed = true → F) :
    ∀ s : Draining τ, Gathers goal pass.octets s →
      Ensures (gathering pass) s (fun _ t => Gathers goal [] t ∧ AllNamed t ∧ pass.hasFailed = false)
        (Stopped (maxRegions + 1) goal F) := by
  induction pass with
  | done records =>
    intro s h
    have h' : Gathers goal (recordOctets records ++ []) s := by rwa [List.append_nil]
    refine ensures_bind.mpr ((deposit_gathers h').mono ?_ fun _ _ => id)
    intro _ t ht
    exact (takeRecords_ensures ht).mono (fun _ _ hu => ⟨hu.1, hu.2, rfl⟩) fun _ _ => id
  | failed records =>
    intro s h
    have h' : Gathers goal (recordOctets records ++ []) s := by rwa [List.append_nil]
    refine ensures_bind.mpr ((deposit_gathers h').mono ?_ fun _ _ => id)
    intro _ t ht
    obtain ⟨slices, -, hgoal⟩ := ht.wrote
    refine ensures_modify.mpr (ensures_fail.mpr ⟨⟨_, rfl⟩, ⟨rfl, rfl, ht.owned⟩, ?_, ht.offers, fun _ => hF rfl⟩)
    rw [← hgoal]
    simp only [List.append_assoc]
    exact List.prefix_append _ _
  | block records block nonempty rest ih =>
    intro s h
    have h' : Gathers goal (recordOctets records ++ (block ++ rest.octets)) s := by
      rwa [← List.append_assoc]
    refine ensures_bind.mpr ((deposit_gathers h').mono ?_ fun _ _ => id)
    intro _ t ht
    refine ensures_bind.mpr ((takeRecords_ensures ht).mono ?_ fun _ _ => id)
    rintro _ u ⟨hu, hall⟩
    refine ensures_bind.mpr ((takeBlock_ensures hu hall).mono ?_ fun _ _ => id)
    rintro _ v ⟨hv, -⟩
    exact ih hF v hv

/-- A drain that returns: the octets of the pass are written, and nothing is left behind. -/
structure Drained (cap : ℕ) (goal : Bytes) (t : Draining τ) : Prop where
  wrote : t.writer.accepted = goal
  clean : Clean t.buffers
  offers : ∀ offer ∈ t.writer.offers, Offers cap offer

omit [TransportWrite τ] in
theorem Gathers.drained (h : Gathers goal [] s) (hregions : s.buffers.regions = []) (hclosed : openRun s = 0)
    (hall : AllNamed s) : Drained (maxRegions + 1) goal s := by
  obtain ⟨slices, hnames, hgoal⟩ := h.wrote
  have hrecords : s.buffers.sendRecords = [] := by
    have hdescribed := h.described
    rw [hregions, List.length_nil, hall] at hdescribed
    exact List.eq_nil_of_length_eq_zero (Nat.le_zero.mp hdescribed)
  have hslices : slices = [] := by
    rw [Names, hregions] at hnames
    exact List.forall₂_nil_left_iff.mp hnames
  refine ⟨?_, ⟨hrecords, hregions, h.owned⟩, h.offers⟩
  rw [← hgoal, hslices, drop_of_closed hclosed, hall.drop]
  simp [recordOctets]

variable {E : Halt Fault → Draining τ → Prop}

omit [TransportWrite τ] in
theorem debugAssert_ensures {holds : Draining τ → Bool} {Q : Unit → Draining τ → Prop}
    (h : holds s = true) (hs : Q () s) : Ensures (debugAssert holds) s Q E := by
  rw [debugAssert]
  refine ensures_get.mpr ?_
  rw [if_neg (by simpa using h)]
  exact ensures_pure.mpr hs

variable {pass : Pass}

theorem flushReadiness_ensures (hclean : Clean s.buffers)
    (hoffers : ∀ offer ∈ s.writer.offers, Offers (maxRegions + 1) offer) :
    Ensures (flushReadiness pass) s
      (fun _ t => Drained (maxRegions + 1) (s.writer.accepted ++ pass.octets) t ∧ pass.hasFailed = false)
      (Stopped (maxRegions + 1) (s.writer.accepted ++ pass.octets) (pass.hasFailed = true)) := by
  rw [flushReadiness]
  refine ensures_modify.mpr (ensures_bind.mpr ((gathering_ensures pass id _ ?_).mono ?_ fun _ _ => id))
  · refine ⟨hoffers, hclean.owned, Nat.zero_le _, Nat.zero_le _, Nat.zero_le _, by simp [openRun], [], .nil, ?_⟩
    simp [hclean.sendRecords, recordOctets]
  · rintro _ t ⟨ht, hall, hwhole⟩
    have hfinish : ∀ u : Draining τ, Drained (maxRegions + 1) (s.writer.accepted ++ pass.octets) u →
        Ensures (do
            debugAssert fun s => s.buffers.sendRecords.isEmpty
            debugAssert fun s => s.buffers.regions.isEmpty) u
          (fun _ t => Drained (maxRegions + 1) (s.writer.accepted ++ pass.octets) t ∧ pass.hasFailed = false)
          (Stopped (maxRegions + 1) (s.writer.accepted ++ pass.octets) (pass.hasFailed = true)) := by
      intro u hu
      refine ensures_bind.mpr (debugAssert_ensures (by simp [hu.clean.sendRecords]) ?_)
      exact debugAssert_ensures (by simp [hu.clean.regions]) ⟨hu, hwhole⟩
    refine ensures_get.mpr ?_
    split
    · refine ensures_bind.mpr ((flushRegions_gathers ht).mono ?_ fun _ _ => id)
      rintro _ u ⟨hu, hregions, hclosed, hnone, hleft⟩
      refine hfinish u (hu.drained hregions hclosed ?_)
      rw [AllNamed] at hall ⊢
      omega
    · next hnone =>
      obtain ⟨hregions, hclosed⟩ := not_or.mp hnone
      refine hfinish t (ht.drained (not_not.mp hregions) ?_ hall)
      rw [openRun, if_neg hclosed]

/-! ## The coalescing drains -/

omit [TransportWrite τ] in
theorem accumulating_ensures (pass : Pass) :
    ∀ s : Draining τ, s.buffers.sendRecords = [] →
      Ensures (accumulating pass) s
        (fun _ t => pass.hasFailed = false ∧
          t = { s with buffers := { s.buffers with coalesced := s.buffers.coalesced ++ pass.octets } })
        fun fault t => (∃ error, fault = .failed (.returned error)) ∧ pass.hasFailed = true ∧
          t.writer = s.writer ∧ t.buffers.sendRecords = [] ∧ t.buffers.regions = s.buffers.regions ∧
          t.buffers.owned = s.buffers.owned := by
  induction pass with
  | done records =>
    intro s hs
    refine ensures_modify.mpr ((ensures_of_ok modify_apply).mpr ⟨rfl, ?_⟩)
    obtain ⟨writer, ⟨gathered, coalesced, sendRecords, regions, minted, owned⟩, runStart, regioned⟩ := s
    dsimp only at hs
    subst hs
    rfl
  | failed records =>
    intro s hs
    exact ensures_modify.mpr (ensures_modify.mpr (ensures_fail.mpr ⟨⟨_, rfl⟩, rfl, rfl, rfl, rfl, rfl⟩))
  | block records block nonempty rest ih =>
    intro s hs
    refine ensures_modify.mpr (ensures_modify.mpr ((ih _ rfl).mono ?_ ?_))
    · rintro _ t ⟨hwhole, rfl⟩
      refine ⟨hwhole, ?_⟩
      obtain ⟨writer, ⟨gathered, coalesced, sendRecords, regions, minted, owned⟩, runStart, regioned⟩ := s
      dsimp only at hs
      subst hs
      simp [Pass.octets]
    · rintro fault t ⟨herror, hfailed, hwriter, hrecords, hregions, howned⟩
      exact ⟨herror, hfailed, hwriter, hrecords, hregions, howned⟩

theorem writePending_ensures (hcap : 1 ≤ cap) (fuel : ℕ) :
    ∀ (pending : Bytes) (s : Draining τ), pending.length ≤ fuel →
      Ensures (writePending fuel pending) s (fun _ t => Advanced cap s t pending)
        fun fault t => (∃ error, fault = .failed (.returned error)) ∧ (Accepting τ → False) ∧
          ∃ n, Advanced cap s t (pending.take n) := by
  induction fuel with
  | zero =>
    intro pending s hfuel
    obtain rfl : pending = [] := List.eq_nil_of_length_eq_zero (Nat.le_zero.mp hfuel)
    exact ensures_pure.mpr .refl
  | succ fuel ih =>
    intro pending s hfuel
    cases pending with
    | nil => exact ensures_pure.mpr .refl
    | cons first more =>
      refine ensures_bind.mpr ((writeOne_ensures (List.cons_ne_nil _ _) hcap).mono ?_ fun _ _ => False.elim)
      rintro answer t ⟨n, hn, hadv, hanswer, hsome⟩
      match answer with
      | .error e =>
        refine ensures_fail.mpr ⟨⟨_, rfl⟩, ?_, n, hadv⟩
        intro haccepts
        obtain ⟨k, -, hk⟩ := hsome haccepts (.inr (List.cons_ne_nil _ _))
        cases hk
      | .ok 0 =>
        refine ensures_fail.mpr ⟨⟨_, rfl⟩, ?_, n, hadv⟩
        intro haccepts
        obtain ⟨k, hpos, hk⟩ := hsome haccepts (.inr (List.cons_ne_nil _ _))
        cases hk
        exact absurd hpos (Nat.lt_irrefl 0)
      | .ok (written + 1) =>
        obtain rfl : written + 1 = n := by simpa using hanswer _ rfl
        have hleft : ((first :: more).drop (written + 1)).length ≤ fuel := by
          rw [List.length_drop]
          omega
        refine (ih _ t hleft).mono ?_ ?_
        · intro _ u hu
          have := hadv.trans hu
          rwa [List.take_append_drop] at this
        · rintro fault u ⟨herror, hfails, m, hu⟩
          have := hadv.trans hu
          rw [← List.take_add] at this
          exact ⟨herror, hfails, _, this⟩

theorem accumulateCoalesced_ensures (hclean : Clean s.buffers)
    (hoffers : ∀ offer ∈ s.writer.offers, Offers cap offer) :
    Ensures (accumulateCoalesced pass) s
      (fun _ t => pass.hasFailed = false ∧ t = { s with buffers := { s.buffers with coalesced := pass.octets } })
      (Stopped cap (s.writer.accepted ++ pass.octets) (pass.hasFailed = true)) := by
  rw [accumulateCoalesced]
  refine ensures_modify.mpr (ensures_bind.mpr (Ensures.mono (accumulating_ensures pass _ hclean.sendRecords) ?_ ?_))
  · rintro _ t ⟨hwhole, rfl⟩
    exact debugAssert_ensures (by simp [hclean.sendRecords]) ⟨hwhole, rfl⟩
  · rintro fault t ⟨herror, hfailed, hwriter, hrecords, hregions, howned⟩
    refine ⟨herror, ⟨hrecords, hregions.trans hclean.regions, howned.trans hclean.owned⟩, ?_, ?_, fun _ => hfailed⟩
    · rw [hwriter]
      exact List.prefix_append _ _
    · rwa [hwriter]

theorem writePending_drained {pending : Bytes} (hclean : Clean s.buffers) (hcap : 1 ≤ cap)
    (hoffers : ∀ offer ∈ s.writer.offers, Offers cap offer) :
    Ensures (writePending pending.length pending) s (fun _ => Drained cap (s.writer.accepted ++ pending))
      (Stopped cap (s.writer.accepted ++ pending) F) := by
  have hkept : ∀ {t : Draining τ} {octets : Bytes}, Advanced cap s t octets →
      Clean t.buffers ∧ ∀ offer ∈ t.writer.offers, Offers cap offer := by
    intro t octets hadv
    obtain ⟨more, hmore, hfine⟩ := hadv.offers
    refine ⟨hadv.buffers ▸ hclean, ?_⟩
    intro offer hmem
    rw [hmore] at hmem
    exact (List.mem_append.mp hmem).elim (hoffers offer) (hfine offer)
  refine (writePending_ensures hcap _ pending s (Nat.le_refl _)).mono ?_ ?_
  · intro _ t hadv
    exact ⟨hadv.accepted, (hkept hadv).1, (hkept hadv).2⟩
  · rintro fault t ⟨herror, hfails, n, hadv⟩
    refine ⟨herror, (hkept hadv).1, ?_, (hkept hadv).2, fun haccepts => (hfails haccepts).elim⟩
    rw [hadv.accepted, List.prefix_append_right_inj]
    exact List.take_prefix _ _

theorem flushCoalescedBorrowed_ensures (hclean : Clean s.buffers) (hcap : 1 ≤ cap)
    (hoffers : ∀ offer ∈ s.writer.offers, Offers cap offer) :
    Ensures (flushCoalescedBorrowed pass) s
      (fun _ t => Drained cap (s.writer.accepted ++ pass.octets) t ∧ pass.hasFailed = false)
      (Stopped cap (s.writer.accepted ++ pass.octets) (pass.hasFailed = true)) := by
  refine ensures_bind.mpr ((accumulateCoalesced_ensures hclean hoffers).mono ?_ fun _ _ => id)
  rintro _ t ⟨hwhole, rfl⟩
  refine ensures_get.mpr (Ensures.mono (writePending_drained ?_ hcap hoffers) (fun _ _ h => ⟨h, hwhole⟩)
    fun _ _ => id)
  exact ⟨hclean.sendRecords, hclean.regions, hclean.owned⟩

theorem flushCoalescedOwned_ensures (hclean : Clean s.buffers) (hcap : 1 ≤ cap)
    (hoffers : ∀ offer ∈ s.writer.offers, Offers cap offer) :
    Ensures (flushCoalescedOwned pass) s
      (fun _ t => Drained cap (s.writer.accepted ++ pass.octets) t ∧ pass.hasFailed = false)
      (Stopped cap (s.writer.accepted ++ pass.octets) (pass.hasFailed = true)) := by
  refine ensures_bind.mpr ((accumulateCoalesced_ensures hclean hoffers).mono ?_ fun _ _ => id)
  rintro _ t ⟨hwhole, rfl⟩
  refine ensures_get.mpr (ensures_modify.mpr (Ensures.mono (writePending_drained ?_ hcap hoffers)
    (fun _ _ h => ⟨h, hwhole⟩) fun _ _ => id))
  exact ⟨hclean.sendRecords, hclean.regions, hclean.owned⟩

/-! ## The gathered drain of owned regions -/

/-- What a write of the owned regions leaves. -/
structure Handed (s : Draining τ) (octets : Bytes) (t : Draining τ) : Prop where
  accepted : t.writer.accepted = s.writer.accepted ++ octets
  offers : ∀ offer ∈ t.writer.offers, Offers maxRegions offer
  buffers : t.buffers = { s.buffers with owned := [], sendRecords := s.buffers.sendRecords.drop s.regioned }
  regioned : t.regioned = 0

theorem writeRegions_ensures (fuel : ℕ) :
    ∀ (regions : List Bytes) (s : Draining τ), Offers maxRegions regions → regions ≠ [] →
      regions.flatten.length < fuel → s.buffers.regions = [] →
      (∀ offer ∈ s.writer.offers, Offers maxRegions offer) → s.writer.accepted ++ regions.flatten <+: goal →
      Ensures (writeRegions fuel regions) s (fun _ => Handed s regions.flatten) (Stopped maxRegions goal F) := by
  induction fuel with
  | zero => intro regions s _ _ hfuel; exact absurd hfuel (Nat.not_lt_zero _)
  | succ fuel ih =>
    intro regions s hregions hne hfuel hlist hoffers hgoal
    have hflat : regions.flatten ≠ [] := fun h => hne (eq_nil_of_flatten hregions.2 h)
    refine ensures_bind.mpr ((writeVectored_ensures hregions (by decide)).mono ?_ fun _ _ => False.elim)
    rintro answer t ⟨n, hn, hadv, hanswer, hsome⟩
    have hmore : ∀ offer ∈ t.writer.offers, Offers maxRegions offer := by
      obtain ⟨more, hmore, hfine⟩ := hadv.offers
      intro offer hmem
      rw [hmore] at hmem
      exact (List.mem_append.mp hmem).elim (hoffers offer) (hfine offer)
    have habandon : ∀ error, (Accepting τ → F) → Ensures (writeRegions.abandon error) t
        (fun _ => Handed s regions.flatten) (Stopped maxRegions goal F) := by
      intro error hfails
      refine ensures_modify.mpr (ensures_fail.mpr ⟨⟨_, rfl⟩, ⟨rfl, ?_, rfl⟩, ?_, hmore, hfails⟩)
      · rw [hadv.buffers]
        exact hlist
      · rw [hadv.accepted]
        refine List.IsPrefix.trans ?_ hgoal
        rw [List.prefix_append_right_inj]
        exact List.take_prefix _ _
    match answer with
    | .error e =>
      refine habandon _ fun haccepts => ?_
      obtain ⟨k, -, hk⟩ := hsome haccepts (.inr hflat)
      cases hk
    | .ok 0 =>
      refine habandon _ fun haccepts => ?_
      obtain ⟨k, hpos, hk⟩ := hsome haccepts (.inr hflat)
      cases hk
      exact absurd hpos (Nat.lt_irrefl 0)
    | .ok (written + 1) =>
      obtain rfl : written + 1 = n := by simpa using hanswer _ rfl
      dsimp only
      split
      · next hall =>
        refine (ensures_of_ok modify_apply).mpr ⟨?_, hmore, ?_, rfl⟩
        · rw [hadv.accepted, List.take_of_length_le hall]
        · show { t.buffers with owned := [], sendRecords := t.buffers.sendRecords.drop t.regioned } = _
          rw [hadv.buffers, hadv.regioned]
      · next hshort =>
        have hleft : (leftOver (written + 1) regions).flatten = regions.flatten.drop (written + 1) :=
          flatten_leftOver _ _
        have hwritten : t.writer.accepted ++ (leftOver (written + 1) regions).flatten =
            s.writer.accepted ++ regions.flatten := by
          rw [hadv.accepted, hleft, List.append_assoc, List.take_append_drop]
        refine (ih _ t ⟨Nat.le_trans (length_leftOver_le _ _) hregions.1, leftOver_ne_nil hregions.2⟩ ?_ ?_ ?_ hmore
          ?_).mono ?_ fun _ _ => id
        · intro hnone
          rw [hnone, List.flatten_nil, eq_comm, List.drop_eq_nil_iff] at hleft
          exact hshort hleft
        · rw [hleft, List.length_drop]
          omega
        · rw [hadv.buffers]
          exact hlist
        · rwa [hwritten]
        · intro _ u hu
          refine ⟨hu.accepted.trans hwritten, hu.offers, ?_, hu.regioned⟩
          rw [hu.buffers, hadv.buffers, hadv.regioned]

/-- The invariant of the drain: as `Gathers`, with what was minted for the open run. -/
structure Owns (goal rest : Bytes) (s : Draining τ) : Prop where
  offers : ∀ offer ∈ s.writer.offers, Offers maxRegions offer
  regions : s.buffers.regions = []
  full : ∀ region ∈ s.buffers.owned, region ≠ []
  regioned_le : s.regioned ≤ s.buffers.sendRecords.length
  described : s.regioned ≤ s.buffers.owned.length
  room : s.buffers.owned.length + (if s.buffers.minted = [] then 0 else 1) ≤ maxRegions
  wrote : s.writer.accepted ++ s.buffers.owned.flatten ++ s.buffers.minted ++
    recordOctets (s.buffers.sendRecords.drop s.regioned) ++ rest = goal

theorem writeOwned_owns (h : Owns goal rest s) (hne : s.buffers.owned ≠ []) :
    Ensures writeOwned s
      (fun _ t => Owns goal rest t ∧ t.buffers.owned = [] ∧ t.buffers.minted = s.buffers.minted ∧ t.regioned = 0 ∧
        t.buffers.sendRecords.length - t.regioned = s.buffers.sendRecords.length - s.regioned)
      (Stopped maxRegions goal F) := by
  have hgoal := h.wrote
  have hfits : s.buffers.owned.length ≤ maxRegions := Nat.le_trans (Nat.le_add_right _ _) h.room
  refine ensures_get.mpr (ensures_modify.mpr (Ensures.mono
    (writeRegions_ensures _ _ _ ⟨hfits, h.full⟩ hne (Nat.lt_succ_self _) h.regions h.offers ?_) ?_ fun _ _ => id))
  · rw [← hgoal]
    simp only [List.append_assoc]
    exact ⟨_, by simp only [List.append_assoc]; rfl⟩
  · intro _ t ht
    have hbuffers := ht.buffers
    have howned : t.buffers.owned = [] := by rw [hbuffers]
    have hminted : t.buffers.minted = s.buffers.minted := by rw [hbuffers]
    refine ⟨⟨ht.offers, ?_, ?_, ?_, ?_, ?_, ?_⟩, howned, hminted, ht.regioned, ?_⟩
    · rw [hbuffers]
      exact h.regions
    · rw [howned]
      exact List.forall_mem_nil _
    · rw [ht.regioned]
      exact Nat.zero_le _
    · rw [ht.regioned]
      exact Nat.zero_le _
    · rw [howned]
      split <;> decide
    · rw [ht.accepted, howned, hminted, ht.regioned, hbuffers, ← hgoal]
      simp
    · rw [ht.regioned, hbuffers]
      simp

theorem mintRun_ensures (h : Owns goal rest s) :
    Ensures mintRun s
      (fun _ t => Owns goal rest t ∧ t.buffers.minted = [] ∧ t.regioned = s.regioned ∧
        t.buffers.sendRecords = s.buffers.sendRecords) E := by
  rw [mintRun]
  refine ensures_get.mpr ?_
  split
  · next hminted =>
    have hroom := h.room
    rw [if_neg hminted] at hroom
    refine ensures_get.mpr ?_
    rw [if_neg (by omega)]
    refine (ensures_of_ok modify_apply).mpr ⟨⟨h.offers, h.regions, ?_, h.regioned_le, ?_, ?_, ?_⟩, rfl, rfl, rfl⟩
    · intro region hmem
      rcases List.mem_append.mp hmem with hmem | hmem
      · exact h.full region hmem
      · rwa [List.mem_singleton.mp hmem]
    · exact Nat.le_trans h.described (by simp)
    · simpa using hroom
    · rw [← h.wrote]
      simp
  · next hminted => exact ensures_pure.mpr ⟨h, not_not.mp hminted, rfl, rfl⟩

omit [TransportWrite τ] in
theorem ownRecord_ensures (h : Owns goal rest s) (hminted : s.buffers.minted = [])
    (hroom : s.buffers.owned.length + 2 ≤ maxRegions) (hmore : s.regioned < s.buffers.sendRecords.length) :
    Ensures ownRecord s
      (fun _ t => Owns goal rest t ∧ t.buffers.minted = [] ∧ t.regioned = s.regioned + 1 ∧
        t.buffers.sendRecords = s.buffers.sendRecords) E := by
  have hnext : recordOctets (s.buffers.sendRecords.drop s.regioned) =
      s.buffers.sendRecords[s.regioned].header ++ s.buffers.sendRecords[s.regioned].payload ++
        recordOctets (s.buffers.sendRecords.drop (s.regioned + 1)) := by
    rw [List.drop_eq_getElem_cons hmore]
    rfl
  have hheader : s.buffers.sendRecords[s.regioned].header ≠ [] := by
    intro hempty
    have hnine := s.buffers.sendRecords[s.regioned].nine
    rw [hempty] at hnine
    cases hnine
  rw [ownRecord]
  refine ensures_get.mpr ?_
  rw [List.getElem?_eq_getElem hmore]
  refine (ensures_of_ok modify_apply).mpr ⟨⟨h.offers, h.regions, ?_, hmore, ?_, ?_, ?_⟩, rfl, rfl, rfl⟩
  · intro region hmem
    rw [recordRegions, hminted, List.nil_append] at hmem
    rcases List.mem_append.mp hmem with hmem | hmem
    · exact h.full region hmem
    · split at hmem
      · rwa [List.mem_singleton.mp hmem]
      · next hpayload =>
        rcases List.mem_pair.mp hmem with rfl | rfl
        · exact hheader
        · exact hpayload
  · have := h.described
    simp only [recordRegions, List.length_append, List.length_cons]
    omega
  · simp only [recordRegions, List.length_append, List.length_cons, if_true]
    split <;> simp only [List.length_nil, List.length_cons] <;> omega
  · rw [← h.wrote, hminted, hnext]
    by_cases hpayload : s.buffers.sendRecords[s.regioned].payload = [] <;> simp [recordRegions, hpayload]

theorem ownRecords_ensures (fuel : ℕ) :
    ∀ s : Draining τ, Owns goal rest s → s.buffers.minted = [] → s.buffers.sendRecords.length ≤ s.regioned + fuel →
      Ensures (ownRecords fuel) s (fun _ t => Owns goal rest t ∧ AllNamed t) (Stopped maxRegions goal F) := by
  induction fuel with
  | zero =>
    intro s h _ hfuel
    refine ensures_get.mpr ?_
    rw [if_neg (by omega)]
    exact ensures_pure.mpr ⟨h, Nat.le_antisymm h.regioned_le hfuel⟩
  | succ fuel ih =>
    intro s h hminted hfuel
    have hrest : ∀ t : Draining τ, Owns goal rest t → t.buffers.minted = [] →
        t.buffers.owned.length + 2 ≤ maxRegions → t.regioned < t.buffers.sendRecords.length →
        t.buffers.sendRecords.length ≤ t.regioned + (fuel + 1) →
        Ensures (do ownRecord; ownRecords fuel) t (fun _ t => Owns goal rest t ∧ AllNamed t)
          (Stopped maxRegions goal F) := by
      intro t ht htminted hroom hmore htfuel
      refine ensures_bind.mpr ((ownRecord_ensures ht htminted hroom hmore).mono ?_ fun _ _ => id)
      rintro _ u ⟨hu, huminted, hregioned, hrecords⟩
      exact ih u hu huminted (by rw [hrecords, hregioned]; omega)
    rw [ownRecords]
    refine ensures_get.mpr ?_
    split
    · next hmore =>
      split
      · next hfull =>
        have hne : s.buffers.owned ≠ [] := by
          intro hempty
          rw [hempty] at hfull
          exact absurd hfull (by decide)
        refine ensures_bind.mpr ((writeOwned_owns h hne).mono ?_ fun _ _ => id)
        rintro _ t ⟨ht, howned, htminted, -, hleft⟩
        refine hrest t ht (htminted.trans hminted) ?_ (by omega) (by omega)
        rw [howned]
        decide
      · exact hrest s h hminted (by omega) hmore hfuel
    · next hdone => exact ensures_pure.mpr ⟨h, Nat.le_antisymm h.regioned_le (by omega)⟩

theorem ownTaken_ensures (h : Owns goal rest s) :
    Ensures ownTaken s (fun _ t => Owns goal rest t ∧ AllNamed t) (Stopped maxRegions goal F) := by
  rw [ownTaken]
  refine ensures_get.mpr ?_
  split
  · refine ensures_bind.mpr ((mintRun_ensures h).mono ?_ fun _ _ => id)
    rintro _ t ⟨ht, hminted, hregioned, hrecords⟩
    exact ownRecords_ensures _ t ht hminted (by have := ht.regioned_le; rw [hrecords, hregioned] at *; omega)
  · next hdone => exact ensures_pure.mpr ⟨h, Nat.le_antisymm h.regioned_le (by omega)⟩

omit [TransportWrite τ] in
theorem mintBlock_owns (h : Owns goal (block ++ rest) s) (hall : AllNamed s)
    (hroom : s.buffers.owned.length + 1 ≤ maxRegions) :
    Owns goal rest { s with buffers := { s.buffers with minted := s.buffers.minted ++ block } } := by
  refine ⟨h.offers, h.regions, h.full, h.regioned_le, h.described, ?_, ?_⟩
  · dsimp only
    split <;> omega
  · rw [← h.wrote]
    dsimp only
    rw [hall.drop]
    simp [recordOctets]

theorem ownBlock_ensures (h : Owns goal (block ++ rest) s) (hall : AllNamed s) :
    Ensures (ownBlock block) s (fun _ t => Owns goal rest t ∧ AllNamed t) (Stopped maxRegions goal F) := by
  rw [ownBlock]
  refine ensures_get.mpr ?_
  split
  · next hfull =>
    have hne : s.buffers.owned ≠ [] := by
      intro hempty
      rw [hempty] at hfull
      exact absurd hfull.2 (by decide)
    refine ensures_bind.mpr ((writeOwned_owns h hne).mono ?_ fun _ _ => id)
    rintro _ t ⟨ht, howned, -, -, hleft⟩
    have hall' : AllNamed t := by
      have := ht.regioned_le
      rw [AllNamed] at hall ⊢
      omega
    refine (ensures_of_ok modify_apply).mpr ⟨mintBlock_owns ht hall' ?_, hall'⟩
    rw [howned]
    decide
  · next hroom =>
    refine (ensures_of_ok modify_apply).mpr ⟨mintBlock_owns h hall ?_, hall⟩
    -- either the list is not full, or there is a run, which has a place in it
    have hopen := h.room
    split at hopen
    · next hminted =>
      have := not_and.mp hroom hminted
      omega
    · exact hopen

theorem owning_ensures (pass : Pass) (hF : pass.hasFailed = true → F) :
    ∀ s : Draining τ, Owns goal pass.octets s → AllNamed s →
      Ensures (owning pass) s (fun _ t => Owns goal [] t ∧ AllNamed t ∧ pass.hasFailed = false)
        (Stopped maxRegions goal F) := by
  have hdeposit : ∀ (rest : Bytes) {records : List SendRecord} {s : Draining τ},
      Owns goal (recordOctets records ++ rest) s →
      Owns goal rest { s with buffers := { s.buffers with sendRecords := s.buffers.sendRecords ++ records } } := by
    intro rest records s h
    refine ⟨h.offers, h.regions, h.full, Nat.le_trans h.regioned_le (by simp), h.described, h.room, ?_⟩
    rw [← h.wrote]
    dsimp only
    rw [List.drop_append_of_le_length h.regioned_le, recordOctets_append]
    simp
  induction pass with
  | done records =>
    intro s h _
    refine ensures_modify.mpr (Ensures.mono (ownTaken_ensures (hdeposit [] ?_))
      (fun _ _ hu => ⟨hu.1, hu.2, rfl⟩) fun _ _ => id)
    rwa [List.append_nil]
  | failed records =>
    intro s h hall
    refine ensures_modify.mpr (ensures_modify.mpr (ensures_fail.mpr
      ⟨⟨_, rfl⟩, ⟨rfl, h.regions, rfl⟩, ?_, h.offers, fun _ => hF rfl⟩))
    rw [← h.wrote]
    simp only [List.append_assoc]
    exact List.prefix_append _ _
  | block records block nonempty rest ih =>
    intro s h _
    refine ensures_modify.mpr (ensures_bind.mpr (Ensures.mono
      (ownTaken_ensures (hdeposit (block ++ rest.octets) ?_)) ?_ fun _ _ => id))
    · rwa [← List.append_assoc]
    · rintro _ t ⟨ht, hall⟩
      refine ensures_bind.mpr ((ownBlock_ensures ht hall).mono ?_ fun _ _ => id)
      rintro _ u ⟨hu, hall'⟩
      exact ih hF u hu hall'

omit [TransportWrite τ] in
theorem Owns.drained (h : Owns goal [] s) (howned : s.buffers.owned = []) (hminted : s.buffers.minted = [])
    (hall : AllNamed s) : Drained maxRegions goal s := by
  have hrecords : s.buffers.sendRecords = [] := by
    have hdescribed := h.described
    rw [howned, List.length_nil, hall] at hdescribed
    exact List.eq_nil_of_length_eq_zero (Nat.le_zero.mp hdescribed)
  refine ⟨?_, ⟨hrecords, h.regions, howned⟩, h.offers⟩
  rw [← h.wrote, howned, hminted, hall.drop]
  simp [recordOctets]

theorem flushOwned_ensures (hclean : Clean s.buffers)
    (hoffers : ∀ offer ∈ s.writer.offers, Offers maxRegions offer) :
    Ensures (flushOwned pass) s
      (fun _ t => Drained maxRegions (s.writer.accepted ++ pass.octets) t ∧ pass.hasFailed = false)
      (Stopped maxRegions (s.writer.accepted ++ pass.octets) (pass.hasFailed = true)) := by
  rw [flushOwned]
  refine ensures_modify.mpr (ensures_bind.mpr ((owning_ensures pass id _ ?_ ?_).mono ?_ fun _ _ => id))
  · refine ⟨hoffers, hclean.regions, List.forall_mem_nil _, Nat.zero_le _, Nat.zero_le _, by simp, ?_⟩
    simp [hclean.sendRecords, recordOctets]
  · simp [AllNamed, hclean.sendRecords]
  · rintro _ t ⟨ht, hall, hwhole⟩
    refine ensures_bind.mpr ((mintRun_ensures ht).mono ?_ fun _ _ => id)
    rintro _ u ⟨hu, hminted, hregioned, hrecords⟩
    have hall' : AllNamed u := by rwa [AllNamed, hregioned, hrecords]
    have hfinish : ∀ v : Draining τ, Drained maxRegions (s.writer.accepted ++ pass.octets) v →
        Ensures (do
            debugAssert fun s => s.buffers.sendRecords.isEmpty
            debugAssert fun s => s.buffers.owned.isEmpty) v
          (fun _ t => Drained maxRegions (s.writer.accepted ++ pass.octets) t ∧ pass.hasFailed = false)
          (Stopped maxRegions (s.writer.accepted ++ pass.octets) (pass.hasFailed = true)) := by
      intro v hv
      refine ensures_bind.mpr (debugAssert_ensures (by simp [hv.clean.sendRecords]) ?_)
      exact debugAssert_ensures (by simp [hv.clean.owned]) ⟨hv, hwhole⟩
    refine ensures_get.mpr ?_
    split
    · next hne =>
      refine ensures_bind.mpr ((writeOwned_owns hu hne).mono ?_ fun _ _ => id)
      rintro _ v ⟨hv, howned, hvminted, hnone, hleft⟩
      refine hfinish v (hv.drained howned (hvminted.trans hminted) ?_)
      rw [AllNamed] at hall' ⊢
      omega
    · next hempty => exact hfinish u (hu.drained (not_not.mp hempty) hminted hall')

/-! ## Every drain -/

/-- Buffers as a driver holds them between two passes: new ones, or those that an earlier pass left, with whatever
drain and transport it was written out. -/
inductive Held : WriteBuffers → Prop
  | new : Held {}
  | left {τ : Type} [TransportWrite τ] (drain : Drain) (pass : Pass) (io : τ) (runStart regioned : ℕ)
      {buffers : WriteBuffers} (h : Held buffers) :
    Held (outcome (flush drain pass) ⟨⟨io, [], []⟩, buffers, runStart, regioned⟩).2.buffers

theorem flush_ensures (drain : Drain) (pass : Pass) (s : Draining τ) (hclean : Clean s.buffers)
    (hoffers : ∀ offer ∈ s.writer.offers, Offers drain.room offer) :
    Ensures (flush drain pass) s
      (fun _ t => Drained drain.room (s.writer.accepted ++ pass.octets) t ∧ pass.hasFailed = false)
      (Stopped drain.room (s.writer.accepted ++ pass.octets) (pass.hasFailed = true)) := by
  cases drain with
  | gathered => exact flushReadiness_ensures hclean hoffers
  | coalescedBorrowed => exact flushCoalescedBorrowed_ensures hclean (by decide) hoffers
  | ownedRegions => exact flushOwned_ensures hclean hoffers
  | coalescedOwned => exact flushCoalescedOwned_ensures hclean (by decide) hoffers

theorem Held.clean {buffers : WriteBuffers} (h : Held buffers) : Clean buffers := by
  induction h with
  | new => exact ⟨rfl, rfl, rfl⟩
  | left drain pass io runStart regioned h ih =>
    obtain ⟨_, t, hflush, ht⟩ | ⟨fault, t, hflush, ht⟩ :=
      (flush_ensures drain pass ⟨⟨io, [], []⟩, _, runStart, regioned⟩ ih (List.forall_mem_nil _)).cases
    · rw [outcome, hflush]
      exact ht.1.clean
    · rw [outcome, hflush]
      exact ht.clean

/-- What `drain` makes of `pass` over the transport `io`, with buffers a driver holds. -/
def drained (drain : Drain) (pass : Pass) (io : τ) (buffers : WriteBuffers) : Except (Halt Fault) Unit × Draining τ :=
  outcome (flush drain pass) ⟨⟨io, [], []⟩, buffers, 0, 0⟩

/-- However a pass is written out, the transport accepts a beginning of its octets, and all of them if the pass does
not fail and the transport accepts. No offer is too long or has an empty region, and the pass ends with an error
if it does not return, never with an index out of bounds; either way the sink and the lists of regions are empty. -/
theorem drained_octets (drain : Drain) (pass : Pass) (io : τ) {buffers : WriteBuffers} (h : Held buffers) :
    let ended := drained drain pass io buffers
    (Accepting τ → pass.hasFailed = false → ended.1 = .ok () ∧ ended.2.writer.accepted = pass.octets) ∧
      ended.2.writer.accepted <+: pass.octets ∧
      (∀ offer ∈ ended.2.writer.offers, offer.length ≤ drain.room ∧ ∀ region ∈ offer, region ≠ []) ∧
      (ended.1 = .ok () ∨ ∃ error, ended.1 = .error (.failed (.returned error))) ∧
      ended.2.buffers.sendRecords = [] ∧ ended.2.buffers.regions = [] ∧ ended.2.buffers.owned = [] := by
  obtain ⟨_, t, hflush, ht, -⟩ | ⟨fault, t, hflush, ht⟩ :=
    (flush_ensures drain pass ⟨⟨io, [], []⟩, buffers, 0, 0⟩ h.clean (List.forall_mem_nil _)).cases
  · rw [drained, outcome, hflush]
    refine ⟨fun _ _ => ⟨rfl, ht.wrote⟩, ?_, ht.offers, .inl rfl, ht.clean.1, ht.clean.2, ht.clean.3⟩
    rw [ht.wrote]
    exact List.prefix_refl _
  · obtain ⟨error, rfl⟩ := ht.returned
    rw [drained, outcome, hflush]
    refine ⟨?_, ht.wrote, ht.offers, .inr ⟨error, rfl⟩, ht.clean.1, ht.clean.2, ht.clean.3⟩
    intro haccepts hwhole
    rw [ht.fails haccepts] at hwhole
    cases hwhole

/-- A transport that takes one octet at a time. -/
structure Trickle

instance : TransportWrite Trickle where
  write data io := (.ok (min 1 data.length), io)
  gather := none
  write_le data io n h := by
    cases h
    exact Nat.min_le_right _ _
  gather_le native h := by simp at h

theorem accepting_trickle : Accepting Trickle where
  write data io h := ⟨min 1 data.length, by simpa [List.length_pos_iff] using h, rfl⟩
  gather native h := by simp [TransportWrite.gather] at h

theorem drained_octets_trickle :
    (drained .gathered (.block [⟨List.replicate 9 7, [], rfl⟩] [1, 2] (by decide) (.done [⟨List.replicate 9 8, [3], rfl⟩]))
      Trickle.mk {}).2.writer.accepted = List.replicate 9 7 ++ [1, 2] ++ List.replicate 9 8 ++ [3] :=
  ((drained_octets .gathered _ Trickle.mk .new).1 accepting_trickle rfl).2

end Ngnet.Http2DrainedOctets
