import Ngnet.QuicHttp3Endings
import Ngnet.QuicHyperiumCore

/-!
# Meters on a native connection

A connection of the core that keeps account of the credit it is asked to grant and of what its handlers observe. It
answers as the connection inside it does, so that what holds over every metered connection holds over every connection.
-/

namespace Ngnet.QuicMeters
open QmuxVarints QmuxStreams
open QuicEndpoint (Transport ConnectionShared ConnCall Observed Note)
open QuicHttp3Join (Detachable Pass readAll lapse produceAll offerAll observedOf)
open QmuxHttp3Join (StreamSource)
open QuicHyperium (Driven)

structure Metered (κ : Type) where
  conn : κ
  /-- The total passed to `extend_max_offset`. -/
  offset : ℕ := 0
  /-- The totals passed to `extend_max_streams_bidi` and `extend_max_streams_uni`. -/
  streams : Directionality → ℕ := fun _ => 0
  /-- What its handlers observed. -/
  heard : List Observed := []

def offsetOf {α : Type} : ConnCall α → ℕ
  | .extendMaxOffset bytes => bytes
  | _ => 0

namespace Metered
variable {κ : Type}

instance [Transport κ] : Transport (Metered κ) where
  call op m :=
    let (answer, notes, conn) := Transport.call op m.conn
    (answer, notes,
      { m with conn, offset := m.offset + offsetOf op, heard := m.heard ++ notes.filterMap observedOf })
  expiry m := Transport.expiry m.conn
  inDrainingPeriod m := Transport.inDrainingPeriod m.conn
  closeError m := Transport.closeError m.conn
  maxTxUdpPayloadSize m := Transport.maxTxUdpPayloadSize m.conn
  retainedBytes m := Transport.retainedBytes m.conn
  scids m := Transport.scids m.conn
  scid m := Transport.scid m.conn
  accepts_le m := Transport.accepts_le m.conn

def extendMaxStreams (kind : Directionality) (count : ℕ) (m : Metered κ) (conn : κ) : Metered κ :=
  { m with conn, streams := Function.update m.streams kind (m.streams kind + count) }

instance [Detachable κ] : Detachable (Metered κ) where
  extendMaxStreamsBidi count m := m.extendMaxStreams .bidirectional count (Detachable.extendMaxStreamsBidi count m.conn)
  extendMaxStreamsUni count m := m.extendMaxStreams .unidirectional count (Detachable.extendMaxStreamsUni count m.conn)
  heard op m hop event hevent := Detachable.heard op m.conn hop event hevent

instance [Driven κ] : Driven (Metered κ) where
  streamsLeft bidi m := Driven.streamsLeft bidi m.conn

end Metered

/-! ## What calls and loops leave on the meters -/

variable {κ : Type}

/-- So many bytes were granted and no streams, and the handlers left these notes. -/
structure Reports (bytes : ℕ) (m : Metered κ) (notes : List Note) (m' : Metered κ) : Prop where
  offset : m'.offset = m.offset + bytes
  streams : m'.streams = m.streams
  heard : m'.heard = m.heard ++ notes.filterMap observedOf

namespace Reports
variable {m m' m'' : Metered κ} {bytes bytes' : ℕ} {notes notes' : List Note}

theorem refl (m : Metered κ) : Reports 0 m [] m := ⟨rfl, rfl, by simp⟩

theorem trans (h : Reports bytes m notes m') (h' : Reports bytes' m' notes' m'') :
    Reports (bytes + bytes') m (notes ++ notes') m'' := by
  constructor
  · rw [h'.offset, h.offset, Nat.add_assoc]
  · rw [h'.streams, h.streams]
  · rw [h'.heard, h.heard, List.filterMap_append, List.append_assoc]

end Reports

theorem reports_behind {σ : Type} {m : Metered κ} {notes : List Note} {pass : Pass (Metered κ) σ} {m' : Metered κ}
    (h : Reports 0 m notes m') (h' : Reports 0 m' pass.notes pass.conn) (datagrams : List Bytes)
    (accepted : List (StreamId × ℕ)) :
    Reports 0 m (pass.behind datagrams accepted notes).notes (pass.behind datagrams accepted notes).conn := h.trans h'

section Loops
variable [Transport κ]

theorem reports_call {α : Type} (op : ConnCall α) (m : Metered κ) :
    Reports (offsetOf op) m (Transport.call op m).2.1 (Transport.call op m).2.2 := ⟨rfl, rfl, rfl⟩

theorem reports_readAll (now : ℕ) (inbound : List Bytes) (m : Metered κ) :
    Reports 0 m (readAll now inbound m).notes (readAll now inbound m).conn := by
  induction inbound generalizing m with
  | nil => exact .refl m
  | cons datagram inbound ih =>
    have hcall := reports_call (.readPkt datagram now) m
    simp only [readAll]
    split
    · exact hcall.trans (ih _)
    · exact hcall.trans (ih _)
    · exact hcall.trans (ih _)
    all_goals exact hcall

theorem reports_lapse {now : ℕ} {m m' : Metered κ} {answer : Except QuicEndpoint.CoreError QuicEndpoint.ExpiryOutcome}
    {notes : List Note} (h : lapse now m = some (answer, notes, m')) : Reports 0 m notes m' := by
  have hcall := reports_call (.handleExpiry now) m
  simp only [lapse] at h
  split at h
  · split at h
    · rw [Option.some.inj h] at hcall
      exact hcall
    · cases h
  · cases h

theorem reports_produceAll (now turns room : ℕ) (m : Metered κ) :
    Reports 0 m (produceAll now turns room m).notes (produceAll now turns room m).conn := by
  induction turns generalizing room m with
  | zero => exact .refl m
  | succ turns ih =>
    cases room with
    | zero => exact .refl m
    | succ room =>
      have hcall := reports_call (.writePkt now) m
      simp only [produceAll]
      split
      · exact hcall.trans (ih _ _)
      all_goals exact hcall

theorem reports_offerAll {σ : Type} [StreamSource σ] (now offers room : ℕ) (source : σ) (m : Metered κ) :
    Reports 0 m (offerAll now offers room source m).notes (offerAll now offers room source m).conn := by
  induction offers generalizing room source m with
  | zero => exact .refl m
  | succ offers ih =>
    cases room with
    | zero => exact .refl m
    | succ room =>
      have hgoes : ∀ (offered : Bool) (room : ℕ) (source : σ) (m : Metered κ),
          let pass := if offered then offerAll now offers room source m else { stop := .dry, source, conn := m }
          Reports 0 m pass.notes pass.conn := by
        intro offered room source m
        cases offered with
        | true => exact ih room source m
        | false => exact .refl m
      simp only [offerAll]
      split
      · exact .refl m
      · rename_i stream slices fin apply _
        have hcall := reports_call (.writeStream stream slices.flatten fin now) m
        split
        · split
          · exact reports_behind hcall (hgoes _ _ _ _) _ _
          · exact reports_behind hcall (.refl _) _ _
        · exact reports_behind hcall (hgoes _ _ _ _) _ _
        · exact hcall
        · split
          · exact reports_behind hcall (hgoes _ _ _ _) _ _
          · exact hcall

end Loops

/-! ## What is observed of a connection -/

/-- Whether the peer opened this stream of this kind. -/
def peers (self : Initiator) (kind : Directionality) (stream : StreamId) : Bool :=
  stream.initiator ≠ self && stream.directionality = kind

/-- The stream of the kind that the peer has opened. -/
def peerOpened (self : Initiator) (kind : Directionality) : Observed → Bool
  | .opened stream => peers self kind stream
  | _ => false

/-- The stream of the kind, opened by the peer, that was closed. -/
def peerClosed (self : Initiator) (kind : Directionality) : Observed → Bool
  | .closed stream _ _ => peers self kind stream
  | _ => false

/-- A connection and what it shares have gone on: what the handlers observed waits to be collected. -/
structure Goes (bytes : ℕ) (m : Metered κ) (s : ConnectionShared) (m' : Metered κ) (s' : ConnectionShared) : Prop where
  offset : m'.offset = m.offset + bytes
  streams : m'.streams = m.streams
  heard : ∃ news, m'.heard = m.heard ++ news ∧ s'.observed = s.observed ++ news

namespace Goes
variable {m m' m'' : Metered κ} {s s' s'' : ConnectionShared} {bytes bytes' : ℕ}

theorem refl (m : Metered κ) (s : ConnectionShared) : Goes 0 m s m s := ⟨rfl, rfl, [], by simp⟩

theorem trans (h : Goes bytes m s m' s') (h' : Goes bytes' m' s' m'' s'') : Goes (bytes + bytes') m s m'' s'' := by
  obtain ⟨news, hheard, hobserved⟩ := h.heard
  obtain ⟨news', hheard', hobserved'⟩ := h'.heard
  constructor
  · rw [h'.offset, h.offset, Nat.add_assoc]
  · rw [h'.streams, h.streams]
  · exact ⟨news ++ news', by simp [hheard', hheard], by simp [hobserved', hobserved]⟩

theorem of_reports {notes : List Note} (h : Reports bytes m notes m')
    (hobserved : s'.observed = (notes.foldl ConnectionShared.note s).observed) : Goes bytes m s m' s' := by
  refine ⟨h.offset, h.streams, notes.filterMap observedOf, h.heard, ?_⟩
  rw [hobserved, QuicHttp3Join.observed_notes]

theorem of_observed (h : s'.observed = s.observed) : Goes 0 m s m s' := ⟨rfl, rfl, [], by simp [h]⟩

end Goes

end Ngnet.QuicMeters
