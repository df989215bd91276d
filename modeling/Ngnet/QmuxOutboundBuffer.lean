import Ngnet.QmuxConnectionSteps

/-!
# The outbound buffer over whole runs

The buffer never passes its ceiling, every slice handed to the record writer begins at the fill
cursor and lies within the buffer, and what the byte stream has accepted, followed by what is
still to be offered to it, is every record in the order of production.
-/

namespace Ngnet.QmuxOutboundBuffer
open QmuxVarints QmuxCloseCodec QmuxErrors QmuxStreams StatefulPrograms QmuxRecordWriter
open QmuxConnection QmuxConnectionSteps

/-- No byte is lost, repeated or out of place. -/
structure Exact (o : OutboundBuffer) : Prop where
  written_le : o.written ≤ o.filled
  exact : o.accepted ++ o.unsent = o.records.flatten

/-- The buffer is exact and the ceiling holds. -/
structure Valid (o : OutboundBuffer) : Prop extends Exact o where
  filled_le : o.filled ≤ o.len
  len_le : o.len ≤ outboundCeiling

section Buffer
variable {o : OutboundBuffer}

theorem Exact.makeRoom (h : Exact o) (room : ℕ) : Exact (o.makeRoom room) := by
  rw [OutboundBuffer.makeRoom_eq]
  exact ⟨h.written_le, h.exact⟩

theorem filled_commit (o : OutboundBuffer) (record : Bytes) :
    (o.commit record).filled = o.filled + record.length := List.length_append

theorem Exact.commit (h : Exact o) (record : Bytes) : Exact (o.commit record) := by
  refine ⟨?_, ?_⟩
  · rw [filled_commit]
    exact Nat.le_trans h.written_le (Nat.le_add_right _ _)
  · have hunsent : (o.commit record).unsent = o.unsent ++ record :=
      List.drop_append_of_le_length h.written_le
    have hrecords : (o.commit record).records.flatten = o.records.flatten ++ record := by
      by_cases hempty : record = []
      · simp [OutboundBuffer.commit, hempty]
      · simp [OutboundBuffer.commit, hempty]
    calc o.accepted ++ (o.commit record).unsent
        = o.accepted ++ o.unsent ++ record := by rw [hunsent, List.append_assoc]
      _ = (o.commit record).records.flatten := by rw [h.exact, hrecords]

theorem Exact.advance (h : Exact o) (taken : ℕ) : Exact (o.advance taken) := by
  refine ⟨Nat.min_le_left _ _, ?_⟩
  -- a stream that reports more than it was offered took all of it
  have hunsent : (o.advance taken).unsent = o.unsent.drop taken := by
    simp only [OutboundBuffer.advance, OutboundBuffer.unsent, OutboundBuffer.filled, List.drop_drop]
    rcases Nat.le_total o.bytes.length (o.written + taken) with hle | hle
    · rw [Nat.min_eq_left hle, List.drop_length, List.drop_of_length_le hle]
    · rw [Nat.min_eq_right hle]
  calc o.accepted ++ o.unsent.take taken ++ (o.advance taken).unsent
      = o.accepted ++ o.unsent := by rw [hunsent, List.append_assoc, List.take_append_drop]
    _ = o.records.flatten := h.exact

theorem Exact.reset (h : Exact o) (hsent : o.filled ≤ o.written) : Exact o.reset := by
  refine ⟨Nat.le_refl _, ?_⟩
  have hunsent : o.unsent = [] := List.drop_of_length_le hsent
  calc o.accepted ++ [] = o.accepted ++ o.unsent := by rw [hunsent]
    _ = o.records.flatten := h.exact

theorem valid_empty : Valid {} := ⟨⟨Nat.le_refl _, rfl⟩, Nat.le_refl _, Nat.zero_le _⟩

theorem Valid.makeRoom (h : Valid o) {room : ℕ} (hroom : o.filled + room ≤ outboundCeiling) :
    Valid (o.makeRoom room) := by
  refine ⟨h.toExact.makeRoom room, ?_, ?_⟩ <;> rw [OutboundBuffer.makeRoom_eq]
  · exact Nat.le_trans h.filled_le (Nat.le_max_left _ _)
  · exact Nat.max_le.mpr ⟨h.len_le, hroom⟩

theorem Valid.commit (h : Valid o) {record : Bytes} (hroom : o.filled + record.length ≤ o.len) :
    Valid (o.commit record) := ⟨h.toExact.commit record, filled_commit o record ▸ hroom, h.len_le⟩

theorem Valid.advance (h : Valid o) (taken : ℕ) : Valid (o.advance taken) :=
  ⟨h.toExact.advance taken, h.filled_le, h.len_le⟩

theorem Valid.reset (h : Valid o) (hsent : o.filled ≤ o.written) : Valid o.reset :=
  ⟨h.toExact.reset hsent, Nat.zero_le _, h.len_le⟩

end Buffer

theorem length_encodeCloseRecord (reason : CloseReason) :
    (encodeCloseRecord reason).length ≤ outboundCeiling := by
  have hframe := (length_closeFrame reason).2
  have hwidth := varintLen_le (closeFrame reason).length
  have hlen : (encodeCloseRecord reason).length =
      varintLen (closeFrame reason).length + (closeFrame reason).length := by
    rw [encodeCloseRecord_eq, List.length_append, length_varintBytes]
  rw [hlen, outboundCeiling, outboundCarry, maxRecord]
  omega

/-- A slice begins at the fill cursor, is no longer than a record and lies in the buffer. -/
structure Cut (h : Handed) : Prop where
  start : h.start = h.buffer.filled
  room_le : h.room ≤ maxRecord
  end_le : h.start + h.room ≤ h.buffer.len

/-- Nothing that was accepted or produced is taken back. -/
def Grows (o o' : OutboundBuffer) : Prop := o.accepted <+: o'.accepted ∧ o.records <+: o'.records

theorem Grows.trans {a b c : OutboundBuffer} (h : Grows a b) (h' : Grows b c) : Grows a c :=
  ⟨h.1.trans h'.1, h.2.trans h'.2⟩

theorem grows_makeRoom (o : OutboundBuffer) (room : ℕ) : Grows o (o.makeRoom room) := by
  rw [OutboundBuffer.makeRoom_eq]
  exact ⟨List.prefix_rfl, List.prefix_rfl⟩

theorem grows_commit (o : OutboundBuffer) (record : Bytes) : Grows o (o.commit record) := by
  refine ⟨List.prefix_rfl, ?_⟩
  rw [OutboundBuffer.commit]
  dsimp only
  split
  · exact List.prefix_rfl
  · exact List.prefix_append _ _

theorem grows_advance (o : OutboundBuffer) (taken : ℕ) : Grows o (o.advance taken) :=
  ⟨List.prefix_append _ _, List.prefix_rfl⟩

theorem grows_reset (o : OutboundBuffer) : Grows o o.reset := ⟨List.prefix_rfl, List.prefix_rfl⟩

variable {β ν : Type}

/-- Every value the buffer has had, the last one at the end. -/
def values (c : Connection β ν) : List OutboundBuffer := c.history ++ [c.out]

/-- Every value of the buffer is valid and grew out of the earlier ones, and every slice was cut
from one of them. -/
structure Sound (c : Connection β ν) : Prop where
  valid : ∀ o ∈ values c, Valid o
  grows : (values c).Pairwise Grows
  handed : ∀ h ∈ c.handed, h.buffer ∈ values c ∧ Cut h

section Connection
variable {c : Connection β ν}

theorem Sound.now (h : Sound c) : Valid c.out := h.valid c.out (by simp [values])

theorem Sound.setOut (h : Sound c) {out : OutboundBuffer} (hout : Valid out)
    (hgrows : Grows c.out out) : Sound (c.setOut out) := by
  have hvalues : values (c.setOut out) = values c ++ [out] := rfl
  refine ⟨?_, ?_, ?_⟩
  · rw [hvalues]
    intro o ho
    rcases List.mem_append.mp ho with hold | hlast
    · exact h.valid o hold
    · exact List.mem_singleton.mp hlast ▸ hout
  · rw [hvalues, List.pairwise_append]
    refine ⟨h.grows, List.pairwise_singleton _ _, ?_⟩
    intro o ho o' ho'
    obtain rfl := List.mem_singleton.mp ho'
    rcases List.mem_append.mp ho with hold | hlast
    · exact ((List.pairwise_append.mp h.grows).2.2 o hold c.out (by simp)).trans hgrows
    · exact List.mem_singleton.mp hlast ▸ hgrows
  · intro slice hslice
    rw [hvalues]
    exact ⟨List.mem_append_left _ (h.handed slice hslice).1, (h.handed slice hslice).2⟩

theorem Sound.hand (h : Sound c) {room : ℕ} (hshort : room ≤ maxRecord)
    (hfits : c.out.filled + room ≤ outboundCeiling) : Sound (c.hand room) := by
  have hset := h.setOut (h.now.makeRoom hfits) (grows_makeRoom _ _)
  refine ⟨hset.valid, hset.grows, ?_⟩
  intro slice hslice
  rcases List.mem_append.mp hslice with hold | hlast
  · exact hset.handed slice hold
  · obtain rfl := List.mem_singleton.mp hlast
    refine ⟨List.mem_append_right _ (List.mem_singleton.mpr rfl), rfl, hshort, ?_⟩
    rw [OutboundBuffer.makeRoom_eq]
    exact Nat.le_max_right _ _

theorem Sound.append (h : Sound c) {record : Bytes}
    (hfits : c.out.filled + record.length ≤ outboundCeiling) :
    Sound ((c.setOut (c.out.makeRoom record.length)).setOut
      ((c.out.makeRoom record.length).commit record)) := by
  have hmade := h.setOut (h.now.makeRoom hfits) (grows_makeRoom _ _)
  refine hmade.setOut (hmade.now.commit ?_) (grows_commit _ _)
  show (c.out.makeRoom record.length).filled + record.length ≤ (c.out.makeRoom record.length).len
  rw [OutboundBuffer.makeRoom_eq]
  exact Nat.le_max_right _ _

theorem Sound.queued (h : Sound c) (reason : CloseReason) (hsent : c.out.bytes = []) :
    Sound (queued c reason) := by
  have hfits : c.out.filled + (encodeCloseRecord reason).length ≤ outboundCeiling := by
    have hlen := length_encodeCloseRecord reason
    rwa [OutboundBuffer.filled, hsent, List.length_nil, Nat.zero_add]
  rw [queued_eq]
  have hqueued := h.append hfits
  exact ⟨hqueued.valid, hqueued.grows, hqueued.handed⟩

theorem sound_new (stream : β) (raw : ν) (role : Role) (readAhead : ℕ) :
    Sound (Connection.new stream raw role readAhead) := by
  refine ⟨?_, List.pairwise_singleton _ _, by simp [Connection.new]⟩
  intro o ho
  obtain rfl := List.mem_singleton.mp ho
  exact valid_empty

end Connection

variable [Dwnx ν]

variable {P : NativeCall → Prop} {D : Prop} {c d : Connection β ν}

theorem Step.exact (hstep : Step P D c d)
    (h : Exact c.out) : Exact d.out ∧ Grows c.out d.out := by
  have hsame : Exact c.out ∧ Grows c.out c.out := ⟨h, List.prefix_rfl, List.prefix_rfl⟩
  cases hstep with
  | stream _ => exact hsame
  | native _ => exact hsame
  | signal _ => exact hsame
  | framer _ => exact hsame
  | pending _ => exact hsame
  | latch error =>
    rw [Connection.latch_eq]
    exact hsame
  | deliver _ _ => exact hsame
  | credit _ => exact hsame
  | hand _ _ => exact ⟨h.makeRoom _, grows_makeRoom _ _⟩
  | commit _ _ => exact ⟨h.commit _, grows_commit _ _⟩
  | advance taken => exact ⟨h.advance taken, grows_advance _ _⟩
  | reset sent => exact ⟨h.reset sent, grows_reset _⟩
  | queueClose reason _ _ =>
    rw [queued_eq]
    exact ⟨(h.makeRoom _).commit _, (grows_makeRoom _ _).trans (grows_commit _ _)⟩
  | written _ _ => exact hsame
  | shutdown _ _ _ => exact hsame

theorem exact_steps
    (hsteps : Relation.ReflTransGen (Step P D) c d) (h : Exact c.out) :
    Exact d.out ∧ Grows c.out d.out := by
  induction hsteps with
  | refl => exact ⟨h, List.prefix_rfl, List.prefix_rfl⟩
  | tail _ hstep ih =>
    obtain ⟨hexact, hgrows⟩ := Step.exact hstep ih.1
    exact ⟨hexact, ih.2.trans hgrows⟩

theorem exact_run [AsyncByteStream β] (fuel : ℕ) (ops : List Op)
    (h : Exact c.out) : Exact (run (Op.step fuel) ops c).2.out :=
  run_preserves (I := fun c => Exact c.out) (fun _ _ _ _ hstep h => (Step.exact hstep h).1) fuel ops h

theorem Step.sound [LawfulDwnx ν]
    (hstep : Step P D c d) (h : Sound c) : Sound d := by
  cases hstep with
  | stream _ => exact ⟨h.valid, h.grows, h.handed⟩
  | native _ => exact ⟨h.valid, h.grows, h.handed⟩
  | signal _ => exact ⟨h.valid, h.grows, h.handed⟩
  | framer _ => exact ⟨h.valid, h.grows, h.handed⟩
  | pending _ => exact ⟨h.valid, h.grows, h.handed⟩
  | latch error =>
    rw [Connection.latch_eq]
    exact ⟨h.valid, h.grows, h.handed⟩
  | deliver _ _ => exact ⟨h.valid, h.grows, h.handed⟩
  | credit _ => exact ⟨h.valid, h.grows, h.handed⟩
  | hand short fits => exact h.hand short fits
  | commit fits _ => exact h.setOut (h.now.commit (fits inferInstance)) (grows_commit _ _)
  | advance taken => exact h.setOut (h.now.advance taken) (grows_advance _ _)
  | reset sent => exact h.setOut (h.now.reset sent) (grows_reset _)
  | queueClose reason _ sent => exact h.queued reason sent
  | written _ _ => exact ⟨h.valid, h.grows, h.handed⟩
  | shutdown _ _ _ => exact ⟨h.valid, h.grows, h.handed⟩

theorem sound_run [AsyncByteStream β] [LawfulDwnx ν] (fuel : ℕ) (ops : List Op)
    (h : Sound c) : Sound (run (Op.step fuel) ops c).2 :=
  run_preserves (fun _ _ _ _ => Step.sound) fuel ops h

/-- After every sequence of operations, on every byte stream and with every native library that
fills at most the buffer it is given: at every moment of the run the cursors are in order under
the ceiling and the accepted bytes followed by the unsent ones are the records in the order of
production, and every slice handed out lies behind the fill cursor of the buffer of that
moment. -/
theorem outbound_run [AsyncByteStream β] [LawfulDwnx ν] (fuel : ℕ) (ops : List Op) (stream : β)
    (raw : ν) (role : Role) (readAhead : ℕ) :
    let c := (run (Op.step fuel) ops (Connection.new stream raw role readAhead)).2
    (∀ o ∈ c.history ++ [c.out], o.written ≤ o.filled ∧ o.filled ≤ o.len ∧
      o.len ≤ outboundCeiling ∧ o.accepted ++ o.unsent = o.records.flatten) ∧
    (c.history ++ [c.out]).Pairwise
      (fun o o' => o.accepted <+: o'.accepted ∧ o.records <+: o'.records) ∧
    ∀ h ∈ c.handed, h.buffer ∈ c.history ++ [c.out] ∧ h.start = h.buffer.filled ∧
      h.room ≤ maxRecord ∧ h.start + h.room ≤ h.buffer.len := by
  have h := sound_run fuel ops (sound_new stream raw role readAhead)
  refine ⟨fun o ho => ?_, h.grows, fun slice hslice => ?_⟩
  · have hvalid := h.valid o ho
    exact ⟨hvalid.written_le, hvalid.filled_le, hvalid.len_le, hvalid.exact⟩
  · obtain ⟨hbuffer, hcut⟩ := h.handed slice hslice
    exact ⟨hbuffer, hcut.start, hcut.room_le, hcut.end_le⟩

/-- The operations of a run in which a record leaves in two pieces and a close is queued. -/
def flushesAndCloses : List Op :=
  [.pollPump 0, .pollFinish 0, .pollClose 0 ⟨.application, 7, 0, []⟩]

/-- Takes two bytes, and one more two polls later. -/
def slowStream : ScriptedStream where
  writes := [.ready (.ok (.accepted 2)), .pending, .pending, .ready (.ok (.accepted 1))]

def oneRecord : ScriptedDwnx where
  writevs := [⟨.record [1, 2, 3], none⟩]

theorem outbound_run_partly_flushed :
    let c := (run (Op.step 4) flushesAndCloses (Connection.new slowStream oneRecord .client 0)).2
    c.out.accepted = [1, 2, 3] ∧ c.out.unsent = [3, 29, 7, 0] ∧ c.history.length = 9 ∧
      c.out.accepted ++ c.out.unsent = c.out.records.flatten := by
  intro c
  have hlast : c.out ∈ c.history ++ [c.out] := by simp
  have hvalid := (outbound_run 4 flushesAndCloses slowStream oneRecord .client 0).1 c.out hlast
  exact ⟨by decide +kernel, by decide +kernel, by decide +kernel, hvalid.2.2.2⟩

end Ngnet.QmuxOutboundBuffer
