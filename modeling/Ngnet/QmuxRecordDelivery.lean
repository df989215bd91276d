import Mathlib.Data.List.Forall2
import Ngnet.QmuxLocalClose

/-!
# What a peer reads of the records that are sent

The byte stream takes what a connection has produced in pieces of its own, and hands it to the framer of the peer in
others. The framer reads the records from the first on, the close among them once its last byte was taken.
-/

namespace Ngnet.QmuxRecordDelivery
open QmuxVarints QmuxCloseCodec QmuxErrors QmuxStreams QmuxRecordFramer StatefulPrograms QmuxRecordWriter
open QmuxConnection QmuxConnectionSteps QmuxOutboundBuffer QmuxLocalClose

/-! ## The beginning of a list of records -/

section Records
variable {s whole : Bytes} {payloads records chunks : List Bytes}

theorem records_flatten (h : List.Forall₂ IsRecord payloads records) : Records records.flatten payloads := by
  induction h with
  | nil => exact .nil
  | cons head _ ih => exact .cons head ih

theorem exists_payloads {P : Bytes → Prop} (h : ∀ record ∈ records, ∃ payload, IsRecord payload record ∧ P payload) :
    ∃ payloads, List.Forall₂ IsRecord payloads records ∧ ∀ payload ∈ payloads, P payload := by
  induction records with
  | nil => exact ⟨[], .nil, by simp⟩
  | cons record records ih =>
    obtain ⟨payload, hrecord, hpayload⟩ := h record (by simp)
    obtain ⟨payloads, hrecords, hpayloads⟩ := ih fun other hother => h other (by simp [hother])
    exact ⟨payload :: payloads, .cons hrecord hrecords, by simpa [hpayload] using hpayloads⟩

theorem splitRecords_prefix (h : Records whole payloads) (hstart : s <+: whole) :
    ∃ tail later, (splitRecords s).2 = .ok tail ∧ (splitRecords s).1 ++ later = payloads ∧ (later = [] ↔ s = whole) := by
  obtain ⟨more, rfl⟩ := hstart
  have hwhole := splitRecords_records h []
  simp only [List.append_nil, splitRecords_none readVarint_nil] at hwhole
  cases hleft : (splitRecords s).2 with
  | error declared =>
    rw [← splitRecords_append_refused hleft more, hwhole] at hleft
    cases hleft
  | ok tail =>
    have hsplit := splitRecords_append hleft more
    rw [hwhole, Prod.mk.injEq] at hsplit
    obtain ⟨hpayloads, hend⟩ := hsplit
    refine ⟨tail, _, rfl, hpayloads.symm, ?_⟩
    constructor
    · intro hlater
      obtain ⟨front, rest, heq, hfront, hrest⟩ := splitRecords_sound (tail ++ more)
      rw [hlater] at hfront
      rw [← hend] at hrest
      cases hfront
      obtain ⟨rfl, -⟩ := hrest
      have hmore : more = [] := (List.append_eq_nil_iff.mp heq).2
      simp [hmore]
    · intro hs
      have hmore : more = [] := by simpa using hs
      have hun : Unfinished tail := splitRecords_unfinished hleft
      rw [hmore, List.append_nil, hun]

theorem firstClose_bind (payloads : List Bytes) :
    (firstClose payloads).bind decodeCloseFrame = payloads.findSome? decodeCloseFrame := by
  induction payloads with
  | nil => rfl
  | cons payload payloads ih =>
    rw [firstClose] at ih ⊢
    cases hclose : decodeCloseFrame payload <;> simp [hclose, ih]

theorem consumeAll_prefix (h : Records whole payloads) (hstart : chunks.flatten <+: whole) :
    ∃ read tail, read <+: payloads ∧ (read = payloads ↔ chunks.flatten = whole) ∧
      (∃ front, chunks.flatten = front ++ tail ∧ Records front read) ∧ Unfinished tail ∧
      (RecordFramer.new.consumeAll chunks).1 = .ok () ∧
      ((RecordFramer.new.consumeAll chunks).2.atBoundary = true ↔ tail = []) ∧
      (RecordFramer.new.consumeAll chunks).2.closeReason = read.findSome? decodeCloseFrame := by
  obtain ⟨tail, later, hleft, hpayloads, hlater⟩ := splitRecords_prefix h hstart
  obtain ⟨front, rest, hflat, hfront, hrest⟩ := splitRecords_sound chunks.flatten
  rw [hleft] at hrest
  obtain ⟨rfl, hun⟩ := hrest
  have hall : RecordFramer.new.consumeAll chunks =
      (.ok (), standing (firstClose (splitRecords chunks.flatten).1) rest) := by
    rw [consumeAll_new, ← Prod.mk.eta (p := splitRecords chunks.flatten), hleft]
    rfl
  refine ⟨_, rest, ⟨later, hpayloads⟩, ?_, ⟨front, hflat, hfront⟩, hun, ?_⟩
  · rw [← hlater, ← hpayloads]
    simp
  · rw [hall]
    refine ⟨rfl, standing_atBoundary _ _, ?_⟩
    rw [RecordFramer.closeReason, standing_close, firstClose_bind]

theorem isRecord_encodeCloseRecord (reason : CloseReason) :
    IsRecord (closeFrame reason) (encodeCloseRecord reason) := by
  obtain ⟨hpos, hle⟩ := length_closeFrame reason
  have hmin : min (closeFrame reason).length maxVarint = (closeFrame reason).length :=
    Nat.min_eq_left (le_trans hle (by decide))
  have hread := readVarint_varintBytes (closeFrame reason).length []
  rw [List.append_nil, hmin, ← length_varintBytes] at hread
  rw [encodeCloseRecord_eq]
  exact .mk hread hpos hle

end Records

/-! ## Runs -/

section Runs
variable {β ν : Type} {c : Connection β ν} {chunks : List Bytes}

theorem accepted_prefix (h : Exact c.out) :
    c.out.accepted <+: c.out.records.flatten ∧ (c.out.accepted = c.out.records.flatten ↔ c.out.unsent = []) := by
  rw [← h.exact]
  simp

variable [Dwnx ν] [AsyncByteStream β]

/-- In every run, if every record that was produced is one, the framer of the peer reads the first of them, whatever
pieces the byte stream took and handed over, and all of them only where nothing is left to be sent. -/
theorem records_followed (fuel : ℕ) (ops : List Op) (stream : β) (raw : ν) (role : Role) (readAhead : ℕ)
    (hrun : (run (Op.step fuel) ops (Connection.new stream raw role readAhead)).2 = c)
    (hrecords : ∀ record ∈ c.out.records, ∃ payload, IsRecord payload record)
    (hchunks : chunks.flatten = c.out.accepted) :
    ∃ payloads read tail, List.Forall₂ IsRecord payloads c.out.records ∧ read <+: payloads ∧
      (read = payloads ↔ c.out.unsent = []) ∧ (∃ front, c.out.accepted = front ++ tail ∧ Records front read) ∧
      Unfinished tail ∧ (RecordFramer.new.consumeAll chunks).1 = .ok () ∧
      ((RecordFramer.new.consumeAll chunks).2.atBoundary = true ↔ tail = []) ∧
      (RecordFramer.new.consumeAll chunks).2.closeReason = read.findSome? decodeCloseFrame := by
  have hexact : Exact c.out := hrun ▸ exact_run fuel ops valid_empty.toExact
  obtain ⟨payloads, hpayloads, -⟩ := exists_payloads (P := fun _ => True) fun record hrecord =>
    (hrecords record hrecord).imp fun _ h => ⟨h, trivial⟩
  obtain ⟨hstart, hsent⟩ := accepted_prefix hexact
  rw [← hchunks] at hstart hsent
  obtain ⟨read, tail, hread, hwhole, hfollowed⟩ := consumeAll_prefix (records_flatten hpayloads) hstart
  rw [hchunks] at hfollowed
  exact ⟨payloads, read, tail, hpayloads, hread, hwhole.trans hsent, hfollowed⟩

/-- Takes the record of the library, and the close in two pieces. -/
def takesPieces : ScriptedStream where
  writes := [.ready (.ok (.accepted 2)), .pending, .pending, .ready (.ok (.accepted 3)), .ready (.ok (.accepted 1))]

def onePaddedRecord : ScriptedDwnx where
  writevs := [⟨.record [1, 0], none⟩]

def paddedRun : Connection ScriptedStream ScriptedDwnx :=
  (run (Op.step 4) [.pollPump 0, .pollFinish 0] (.new takesPieces onePaddedRecord .client 0)).2

theorem records_followed_padded : (RecordFramer.new.consumeAll [[1], [], [0]]).1 = .ok () ∧
    (RecordFramer.new.consumeAll [[1], [], [0]]).2.atBoundary = true := by
  have hrecord : IsRecord [0] ([1] ++ [0]) := .mk (by decide) (by decide) (by decide)
  have hrecords : ∀ record ∈ paddedRun.out.records, ∃ payload, IsRecord payload record := by
    rw [show paddedRun.out.records = [[1, 0]] by decide +kernel]
    simpa using ⟨_, hrecord⟩
  obtain ⟨-, -, -, -, -, -, -, -, hok, -⟩ := records_followed 4 _ takesPieces onePaddedRecord .client 0
    (show _ = paddedRun from rfl) hrecords (show [[1], [], [0]].flatten = _ by decide +kernel)
  exact ⟨hok, by decide⟩

/-- In every run in which `poll_close` queues its record behind records that carry no close, the peer comes to know
the reason, as far as the wire tells it, once the last byte was taken and not before. -/
theorem close_received (fuel : ℕ) (earlier later : List Op) (cx : Waker) (reason : CloseReason) (stream : β) (raw : ν)
    (role : Role) (readAhead : ℕ) {c₀ c₁ : Connection β ν}
    (hearlier : (run (Op.step fuel) earlier (Connection.new stream raw role readAhead)).2 = c₀)
    (hclose : ((Op.pollClose cx reason).step fuel c₀).2 = c₁) (hlater : (run (Op.step fuel) later c₁).2 = c)
    (hnone : c₀.closing = none) (hqueued : c₁.closing ≠ none)
    (hrecords : ∀ record ∈ c.out.records.dropLast, ∃ payload, IsRecord payload record ∧ decodeCloseFrame payload = none)
    (hchunks : chunks.flatten = c.out.accepted) :
    (RecordFramer.new.consumeAll chunks).1 = .ok () ∧ (RecordFramer.new.consumeAll chunks).2.closeReason =
      if c.out.unsent = [] then some (received reason) else none := by
  have hexact : Exact c₀.out := hearlier ▸ exact_run fuel earlier valid_empty.toExact
  subst hclose
  obtain ⟨before, -, hclosed⟩ := pollClose_closed fuel cx reason hexact hnone hqueued
  have hend : Closed before (encodeCloseRecord reason) (c₀.terminal.getD (closedLocally reason)) c₀.shutdowns c := by
    rw [← hlater]
    exact run_preserves (I := Closed _ _ _ _) (fun _ _ _ _ => Step.closed) fuel later hclosed
  rw [hend.records, List.dropLast_concat] at hrecords
  obtain ⟨payloads, hpayloads, hquiet⟩ := exists_payloads hrecords
  have hwhole : Records c.out.records.flatten (payloads ++ [closeFrame reason]) := by
    rw [hend.records]
    exact records_flatten (List.rel_append hpayloads (.cons (isRecord_encodeCloseRecord reason) .nil))
  obtain ⟨hstart, hsent⟩ := accepted_prefix hend.exact
  rw [← hchunks] at hstart hsent
  obtain ⟨read, tail, hread, hall, -, -, hok, -, hreason⟩ := consumeAll_prefix hwhole hstart
  have hnoclose : payloads.findSome? decodeCloseFrame = none := List.findSome?_eq_none_iff.mpr hquiet
  refine ⟨hok, hreason.trans ?_⟩
  split
  · rename_i hunsent
    rw [hall.mpr (hsent.mpr hunsent), List.findSome?_append, hnoclose]
    simp [decodeCloseFrame_closeFrame]
  · rename_i hunsent
    -- what was read ends before the close
    have hshort : read <+: payloads := by
      rcases List.prefix_concat_iff.mp hread with heq | hshort
      · exact absurd (hsent.mp (hall.mp heq)) hunsent
      · exact hshort
    rw [List.findSome?_eq_none_iff] at hnoclose ⊢
    exact fun payload hpayload => hnoclose payload (hshort.subset hpayload)

def closedPaddedRun : Connection ScriptedStream ScriptedDwnx :=
  (run (Op.step 4) [.pollFinish 0, .pollFinish 0] ((Op.pollClose 0 plainClose).step 4 paddedRun).2).2

theorem close_received_padded : (RecordFramer.new.consumeAll [[1, 0, 3], [29], [7, 0]]).2.closeReason =
    some (received plainClose) := by
  have hrecord : IsRecord [0] ([1] ++ [0]) := .mk (by decide) (by decide) (by decide)
  have hrecords : ∀ record ∈ closedPaddedRun.out.records.dropLast,
      ∃ payload, IsRecord payload record ∧ decodeCloseFrame payload = none := by
    rw [show closedPaddedRun.out.records.dropLast = [[1, 0]] by decide +kernel]
    simpa using ⟨_, hrecord, by decide⟩
  have hreason := (close_received 4 _ _ 0 plainClose takesPieces onePaddedRecord .client 0
    (show _ = paddedRun from rfl) rfl (show _ = closedPaddedRun from rfl) (by decide +kernel) (by decide +kernel)
    hrecords (show [[1, 0, 3], [29], [7, 0]].flatten = _ by decide +kernel)).2
  rwa [if_pos (by decide +kernel)] at hreason

end Runs

end Ngnet.QmuxRecordDelivery
