import Ngnet.QmuxConnection

/-!
# What a connection can do

Every entry point of the connection is a sequence of the steps listed in `Step`, each with the
condition under which the program takes it. An invariant of whole runs is proved by going
through this list once; the program is not looked at again.

`P` restricts the native calls a step may make, so that the operations that extend no window
can be told from those that do, and `D` says whether events may be handed to the caller.
-/

namespace Ngnet.QmuxConnectionSteps
open QmuxVarints QmuxCloseCodec QmuxErrors QmuxRecordFramer QmuxStreams StatefulPrograms
open QmuxRecordWriter QmuxConnection Relation

variable {β ν : Type} [Dwnx ν]

/-- The connection with the record of a close queued and its ending latched. -/
def queued (c : Connection β ν) (reason : CloseReason) : Connection β ν :=
  let record := encodeCloseRecord reason
  let c := c.setOut (c.out.makeRoom record.length)
  let c := c.setOut (c.out.commit record)
  { c with closing := some .queued }.latch (closedLocally reason)

omit [Dwnx ν] in
theorem queued_eq (c : Connection β ν) (reason : CloseReason) :
    queued c reason =
      { (c.setOut (c.out.makeRoom (encodeCloseRecord reason).length)).setOut
          ((c.out.makeRoom (encodeCloseRecord reason).length).commit (encodeCloseRecord reason)) with
        closing := some .queued
        terminal := some (c.terminal.getD (closedLocally reason)) } := by
  rw [queued, Connection.latch_eq]
  rfl

/-- The connection after a call of `poll_shutdown`. -/
def shutDown (c : Connection β ν) (stream : β) (answer : Poll (Except Unit Unit)) :
    Connection β ν :=
  { c with
    stream
    shutdowns := c.shutdowns ++ [(c.out, answer)]
    closing := if answer = .ready (.ok ()) then some .complete else c.closing }

inductive Step (P : NativeCall → Prop) (D : Prop) : Connection β ν → Connection β ν → Prop
  | stream {c : Connection β ν} (stream : β) : Step P D c { c with stream }
  | native {c : Connection β ν} {conn : Conn ν} (calls : c.conn.Extends P conn) :
      Step P D c { c with conn }
  | signal {c : Connection β ν} (f : Signals → Signals) : Step P D c (c.signal f)
  | framer {c : Connection β ν} (framer : RecordFramer) : Step P D c { c with framer }
  | pending {c : Connection β ν} (producePending : Bool) : Step P D c { c with producePending }
  | latch {c : Connection β ν} (error : Error) : Step P D c (c.latch error)
  | deliver {c : Connection β ν} {event : Event} {rest : List Event} (asked : D)
      (first : c.conn.events = event :: rest) : Step P D c (c.deliver event rest)
  | credit {c : Connection β ν} (bytes : ℕ) :
      Step P D c { c with readAhead := c.readAhead.credit bytes }
  | hand {c : Connection β ν} {room : ℕ} (short : room ≤ maxRecord)
      (fits : c.out.filled + room ≤ outboundCeiling) : Step P D c (c.hand room)
  | commit {c : Connection β ν} {record : Bytes}
      (fits : LawfulDwnx ν → c.out.filled + record.length ≤ c.out.len)
      (live : c.closing = none ∨ c.terminal = none) : Step P D c (c.setOut (c.out.commit record))
  | advance {c : Connection β ν} (taken : ℕ) : Step P D c (c.setOut (c.out.advance taken))
  | reset {c : Connection β ν} (sent : c.out.filled ≤ c.out.written) :
      Step P D c (c.setOut c.out.reset)
  | queueClose {c : Connection β ν} (reason : CloseReason) (live : c.closing = none)
      (sent : c.out.bytes = []) : Step P D c (queued c reason)
  | written {c : Connection β ν} (sent : c.out.bytes = []) (closing : c.closing = some .queued) :
      Step P D c { c with closing := some .written }
  | shutdown {c : Connection β ν} (stream : β) (answer : Poll (Except Unit Unit))
      (sent : c.closing = some .written ∨ c.out.bytes = []) : Step P D c (shutDown c stream answer)

/-- Neither the ending nor the progress of a close has changed, and nothing was shut down. -/
structure Steady (c d : Connection β ν) : Prop where
  terminal : d.terminal = c.terminal
  closing : d.closing = c.closing
  shutdowns : d.shutdowns = c.shutdowns

/-- A step that neither queues a close nor shuts anything down. -/
structure Quiet (P : NativeCall → Prop) (D : Prop) (c d : Connection β ν) : Prop where
  step : Step P D c d
  closing : d.closing = c.closing
  shutdowns : d.shutdowns = c.shutdowns

variable {P : NativeCall → Prop} {D : Prop} {c : Connection β ν}

theorem Quiet.steps {d : Connection β ν}
    (h : ReflTransGen (Quiet P D) c d) : ReflTransGen (Step P D) c d := ReflTransGen.mono (fun _ _ => Quiet.step) _ _ h

theorem Quiet.keeps {d : Connection β ν}
    (h : ReflTransGen (Quiet P D) c d) : d.closing = c.closing ∧ d.shutdowns = c.shutdowns := by
  induction h with
  | refl => exact ⟨rfl, rfl⟩
  | tail _ h ih => exact ⟨h.closing.trans ih.1, h.shutdowns.trans ih.2⟩

/-- The program takes quiet steps, and leaves the connection as open as it was when it returns. -/
def Goes {α : Type} (P : NativeCall → Prop) (D : Prop) (m : ConnectionM β ν α) (c : Connection β ν)
    (Q : α → Connection β ν → Prop) : Prop :=
  Moves (Quiet P D) m c fun a d => Steady c d ∧ Q a d

section Rules
variable {α γ : Type} {P : NativeCall → Prop} {D : Prop} {m : ConnectionM β ν α}
  {f : α → ConnectionM β ν γ} {c d : Connection β ν} {Q Q' : α → Connection β ν → Prop}

theorem Goes.moves (h : Goes P D m c Q) : Moves (Step P D) m c fun a d => Steady c d ∧ Q a d :=
  Moves.weaken h fun _ _ => Quiet.step

theorem Goes.mono (h : Goes P D m c Q) (hQ : ∀ a d, Q a d → Q' a d) : Goes P D m c Q' :=
  Moves.mono h fun a d ⟨hs, hq⟩ => ⟨hs, hQ a d hq⟩

theorem Goes.pure {a : α} (h : Q a c) : Goes P D (pure a) c Q := Moves.pure ⟨⟨rfl, rfl, rfl⟩, h⟩

theorem Goes.fail {error : Error} : Goes P D (fail error : ConnectionM β ν α) c Q := Moves.fail

theorem Goes.bind {Q' : γ → Connection β ν → Prop} (h : Goes P D m c Q)
    (hf : ∀ a d, Steady c d → Q a d → Goes P D (f a) d Q') : Goes P D (m >>= f) c Q' := by
  refine Moves.bind h ?_
  rintro a d ⟨hcd, hq⟩
  refine Moves.mono (hf a d hcd hq) ?_
  rintro a' e ⟨hde, hq'⟩
  exact ⟨⟨hde.1.trans hcd.1, hde.2.trans hcd.2, hde.3.trans hcd.3⟩, hq'⟩

theorem Goes.modifyLast {g : Connection β ν → Connection β ν} {Q : PUnit → Connection β ν → Prop}
    (hstep : Step P D c (g c)) (hs : Steady c (g c)) (hq : Q ⟨⟩ (g c)) :
    Goes P D (modify g : ConnectionM β ν PUnit) c Q :=
  (moves_of_ok modify_apply).mpr ⟨.single ⟨hstep, hs.closing, hs.shutdowns⟩, hs, hq⟩

theorem Goes.steps {Q : γ → Connection β ν → Prop} {m : ConnectionM β ν PUnit}
    {f : PUnit → ConnectionM β ν γ} (hm : m c = .ok ⟨⟩ d) (hsteps : ReflTransGen (Quiet P D) c d)
    (hs : Steady c d) (hf : Goes P D (f ⟨⟩) d Q) : Goes P D (m >>= f) c Q := by
  refine Goes.bind (Q := fun _ e => e = d) ((moves_of_ok hm).mpr ⟨hsteps, hs, rfl⟩) ?_
  rintro _ e - rfl
  exact hf

theorem Goes.set {Q : γ → Connection β ν → Prop} {f : PUnit → ConnectionM β ν γ}
    (hstep : Step P D c d) (hs : Steady c d) (hf : Goes P D (f ⟨⟩) d Q) : Goes P D (set d >>= f) c Q :=
  .steps rfl (.single ⟨hstep, hs.closing, hs.shutdowns⟩) hs hf

theorem Goes.modify {Q : γ → Connection β ν → Prop} {f : PUnit → ConnectionM β ν γ}
    {g : Connection β ν → Connection β ν} (hstep : Step P D c (g c)) (hs : Steady c (g c))
    (hf : Goes P D (f ⟨⟩) (g c) Q) : Goes P D (modify g >>= f) c Q := .steps rfl (.single ⟨hstep, hs.closing, hs.shutdowns⟩) hs hf

theorem Goes.get {Q : γ → Connection β ν → Prop} {f : Connection β ν → ConnectionM β ν γ}
    (h : Goes P D (f c) c Q) : Goes P D (get >>= f) c Q := Moves.get h

theorem Goes.failWith {error : Error} : Goes P D (failWith error : ConnectionM β ν α) c Q :=
  (moves_of_error (failWith_apply error c)).mpr
    (.single ⟨.latch error, by rw [Connection.latch_eq], by rw [Connection.latch_eq]⟩)

end Rules

/-! ## Building a record -/

section Writer
variable {P : NativeCall → Prop} (hP : ∀ call answer, P (.writev call answer))

/-- A finished record fits the buffer it was built in. -/
def Fits (w : RecordWriter ν) : Prop :=
  LawfulDwnx ν → ∀ record, w.record = some record → record.length ≤ w.room

/-- What a push does to its writer. -/
structure WriterStep (P : NativeCall → Prop) (w w' : RecordWriter ν) : Prop where
  conn : w.conn.Extends P w'.conn
  room : w'.room = w.room
  fits : Fits w → Fits w'

theorem writerSteps {w w' : RecordWriter ν} (h : ReflTransGen (WriterStep P) w w') :
    WriterStep P w w' := by
  induction h with
  | refl => exact ⟨.refl _, rfl, id⟩
  | tail _ h ih => exact ⟨ih.conn.trans h.conn, h.room.trans ih.room, h.fits ∘ ih.fits⟩

include hP

theorem writev_extends (call : Writev) (conn : Conn ν) : conn.Extends P (conn.writev call).2 :=
  Conn.withBridge_extends _ _ (hP call) conn

theorem pushVectored_moves (request : VectoredWriteRequest) (w : RecordWriter ν) :
    Moves (WriterStep P) (RecordWriter.pushVectored request) w fun _ _ => True := by
  by_cases hclosed : (w.tooSmall || w.record.isSome) = true
  · rw [Moves, Ensures, RecordWriter.pushVectored_closed request hclosed]
    exact ⟨.refl, trivial⟩
  · cases hcall : w.conn.writev (RecordWriter.submission w.room request) with
    | mk answer conn =>
    have hconn : w.conn.Extends P conn := by
      have h := writev_extends hP (RecordWriter.submission w.room request) w.conn
      rwa [hcall] at h
    have hrecord (bytes : Bytes) (hbytes : answer.result = .record bytes) (law : LawfulDwnx ν) :
        bytes.length ≤ w.room := by
      obtain ⟨signals, heq⟩ := Conn.withBridge_eq (Dwnx.writev (RecordWriter.submission w.room request))
        (.writev (RecordWriter.submission w.room request)) w.conn
      rw [Conn.writev, heq] at hcall
      obtain ⟨rfl, -⟩ := Prod.mk.inj hcall
      exact law.record_le (RecordWriter.submission w.room request) w.conn.raw bytes hbytes
    rw [Moves, Ensures, RecordWriter.pushVectored_open hclosed hcall]
    obtain ⟨result, pdatalen⟩ := answer
    cases result with
    | record bytes =>
      refine ⟨.single ⟨hconn, rfl, fun _ law record heq => ?_⟩, trivial⟩
      obtain rfl : bytes = record := by simpa using heq
      exact hrecord bytes rfl law
    | writeMore => exact ⟨.single ⟨hconn, rfl, id⟩, trivial⟩
    | streamDataBlocked => exact ⟨.single ⟨hconn, rfl, id⟩, trivial⟩
    | streamShutWr => exact ⟨.single ⟨hconn, rfl, id⟩, trivial⟩
    | failed kind => exact ReflTransGen.single ⟨hconn, rfl, id⟩

theorem packLoop_moves (stream : Option StreamId) (fin : Bool) (fuel : ℕ) :
    ∀ (f : Fragments) (consumed : ℕ) (w : RecordWriter ν),
      Moves (WriterStep P) (packLoop stream fin fuel f consumed) w fun _ _ => True := by
  induction fuel with
  | zero => intro f consumed w; exact Moves.outOfFuel
  | succ fuel ih =>
    intro f consumed w
    rw [packLoop]
    refine Moves.bind (Moves.attempt (Q := fun _ _ => True) (pushVectored_moves hP _ w)
      fun _ _ _ => trivial) ?_
    intro pushed w' _
    match pushed with
    | .error kind =>
      dsimp only
      split
      · exact Moves.pure trivial
      · exact Moves.fail
    | .ok (.accepted taken) =>
      dsimp only
      split
      · exact Moves.pure trivial
      split
      · exact Moves.pure trivial
      · exact ih _ _ w'
    | .ok (.complete taken) => exact Moves.pure trivial
    | .ok .streamBlocked => exact Moves.pure trivial
    | .ok .streamClosed => exact Moves.pure trivial

theorem finish_moves (w : RecordWriter ν) :
    Moves (WriterStep P) RecordWriter.finish w fun bytes w' =>
      Fits w' → LawfulDwnx ν → bytes.length ≤ w'.room := by
  have hdone (w : RecordWriter ν) : Moves (WriterStep P)
      (get >>= fun w => pure (w.record.getD []) : WriterM ν Bytes) w fun bytes w' =>
        Fits w' → LawfulDwnx ν → bytes.length ≤ w'.room := by
    refine Moves.get (Moves.pure ?_)
    intro hfits law
    cases hrecord : w.record with
    | none => simp
    | some record => exact hfits law record hrecord
  rw [RecordWriter.finish]
  refine Moves.get ?_
  split
  · exact Moves.pure fun _ _ => Nat.zero_le _
  · split
    · exact Moves.bind (pushVectored_moves hP controlOnly w) fun _ w' _ => hdone w'
    · exact hdone w

theorem packVectored_extends (stream : Option StreamId) (f : Fragments) (fin : Bool) (room : ℕ)
    (conn : Conn ν) :
    Ensures (packVectored stream f fin room) conn
      (fun r conn' => conn.Extends P conn' ∧ (LawfulDwnx ν → r.1.bytes.length ≤ room))
      fun _ conn' => conn.Extends P conn' := by
  have hnew : Fits (RecordWriter.new conn room) := by
    intro _ record h
    simp [RecordWriter.new] at h
  have hbuild : Moves (WriterStep P) (packing stream f fin)
      (RecordWriter.new conn room)
      fun r w => Fits w → LawfulDwnx ν → r.1.bytes.length ≤ w.room := by
    rw [packing]
    refine Moves.bind (packLoop_moves hP stream fin _ f 0 _) ?_
    rintro ⟨consumed, verdict, f'⟩ w -
    exact Moves.bind (finish_moves hP w) fun bytes w' hbytes => Moves.pure hbytes
  rw [packVectored_eq]
  unfold Moves Ensures at hbuild
  unfold Ensures Conn.record
  split at hbuild
  · rename_i r w hrun
    obtain ⟨hsteps, hbytes⟩ := hbuild
    have hstep := writerSteps hsteps
    rw [hrun]
    refine ⟨hstep.conn, fun law => ?_⟩
    have := hbytes (hstep.fits hnew) law
    rwa [hstep.room] at this
  · rename_i e w hrun
    have hstep := writerSteps hbuild
    rw [hrun]
    cases e with
    | failed kind =>
      refine hstep.conn.trans ?_
      rw [RecordWriter.drop]
      split
      · exact writev_extends hP _ _
      · exact .refl _
    | outOfFuel => exact hstep.conn

end Writer

/-! ## The entry points -/

/-- The calls that extend a window towards the peer. -/
def isCredit : NativeCall → Bool
  | .extendMaxStreamData _ _ _ | .extendMaxData _ => true
  | _ => false

section Programs
variable {P : NativeCall → Prop} {D : Prop} (hP : ∀ call, isCredit call = false → P call)

theorem checkTerminal_goes (c : Connection β ν) :
    Goes P D checkTerminal c fun _ d => d.terminal = none := by
  unfold Goes Moves Ensures
  cases h : c.terminal with
  | none => rw [checkTerminal_open h]; exact ⟨.refl, ⟨rfl, rfl, rfl⟩, h⟩
  | some error => rw [checkTerminal_ended h]

variable {c : Connection β ν}

omit [Dwnx ν] in
theorem takeEvent_empty (h : c.conn.events = []) :
    takeEvent c = .ok none c := by
  rw [takeEvent, bind_ok get_apply, h]
  rfl

omit [Dwnx ν] in
theorem takeEvent_first {event : Event} {rest : List Event}
    (h : c.conn.events = event :: rest) :
    takeEvent c = .ok (some event) (c.deliver event rest) := by
  rw [takeEvent, bind_ok get_apply, h]
  rfl

theorem takeEvent_goes (hD : D) (c : Connection β ν) : Goes P D takeEvent c fun _ _ => True := by
  rw [takeEvent]
  refine Goes.get ?_
  split
  · exact Goes.pure trivial
  · rename_i event rest hevents
    exact Goes.set (.deliver hD hevents) ⟨rfl, rfl, rfl⟩ (Goes.pure trivial)

theorem native_goes {α : Type} {call : Conn ν → Except CoreErrorKind α × Conn ν}
    (hcall : ∀ conn : Conn ν, conn.Extends P (call conn).2) (c : Connection β ν) :
    Goes P D (native call) c fun _ _ => True := by
  rw [native]
  refine Goes.get (Goes.set (.native (hcall c.conn)) ⟨rfl, rfl, rfl⟩ ?_)
  cases (call c.conn).1 with
  | ok a => exact Goes.pure trivial
  | error kind => exact Goes.fail

theorem serialise_goes {room : ℕ}
    {build : ℕ → Program CoreErrorKind (Conn ν) (Produced × Fragments)}
    (hbuild : ∀ room conn, Ensures (build room) conn
      (fun r conn' => conn.Extends P conn' ∧ (LawfulDwnx ν → r.1.bytes.length ≤ room))
      fun _ conn' => conn.Extends P conn')
    (hfits : c.out.filled + min room maxRecord ≤ outboundCeiling)
    (hlive : c.closing = none ∨ c.terminal = none) :
    Goes P D (serialise room build) c fun _ _ => True := by
  have hhand : Quiet P D c (c.hand (min room maxRecord)) :=
    ⟨.hand (Nat.min_le_right _ _) hfits, rfl, rfl⟩
  have happly := serialise_apply room build c
  rcases (hbuild (min room maxRecord) c.conn).cases with
    ⟨r, conn, hresult, hconn, hbytes⟩ | ⟨e, conn, hresult, hconn⟩
  · rw [hresult] at happly
    refine (moves_of_ok happly).mpr ⟨.tail (.tail (.single hhand) ⟨.native hconn, rfl, rfl⟩)
      ⟨.commit ?_ hlive, rfl, rfl⟩, ⟨rfl, rfl, rfl⟩, trivial⟩
    intro law
    have hlen := hbytes law
    simp only [Connection.hand, Connection.setOut, OutboundBuffer.makeRoom_eq, OutboundBuffer.filled]
    omega
  · have hnative : ReflTransGen (Quiet P D) c { c.hand (min room maxRecord) with conn } :=
      .tail (.single hhand) ⟨.native hconn, rfl, rfl⟩
    rw [hresult] at happly
    cases e with
    | failed kind =>
      refine (moves_of_error happly).mpr (hnative.tail ⟨.latch _, ?_, ?_⟩)
      · rw [Connection.latch_eq]
      · rw [Connection.latch_eq]
    | outOfFuel => exact (moves_of_error happly).mpr hnative

section Streams
variable [AsyncByteStream β]

variable (fuel : ℕ) (cx : Waker)

theorem flushLoop_goes (fuel : ℕ) :
    ∀ c : Connection β ν, Goes P D (flushLoop cx fuel) c fun sent d =>
      (sent = true → d.out.bytes = []) ∧ (sent = false → d.out.written < d.out.filled) := by
  induction fuel with
  | zero => intro c; exact Moves.outOfFuel
  | succ fuel ih =>
    intro c
    rw [flushLoop]
    refine Goes.get ?_
    split
    · rename_i hless
      refine Goes.set (.stream _) ⟨rfl, rfl, rfl⟩ ?_
      split
      · exact Goes.pure ⟨by simp, fun _ => hless⟩
      · exact Goes.pure ⟨by simp, fun _ => hless⟩
      · exact Goes.failWith
      · split
        · exact Goes.modify (.signal _) ⟨rfl, rfl, rfl⟩ (Goes.pure ⟨by simp, fun _ => hless⟩)
        · exact Goes.modify (.advance _) ⟨rfl, rfl, rfl⟩ (ih _)
    · rename_i hless
      exact Goes.modify (.reset (by omega)) ⟨rfl, rfl, rfl⟩ (Goes.pure ⟨fun _ => rfl, by simp⟩)

theorem flush_goes (c : Connection β ν) :
    Goes P D (flush cx) c fun sent d =>
      (sent = true → d.out.bytes = []) ∧ (sent = false → d.out.written < d.out.filled) :=
  Goes.get (flushLoop_goes cx _ c)

theorem room_of_empty {o : OutboundBuffer} (h : o.bytes = []) :
    o.filled + maxRecord ≤ outboundCeiling := by
  rw [OutboundBuffer.filled, h]
  decide

theorem ensureRoom_goes (c : Connection β ν) :
    Goes P D (ensureRoom cx) c fun room d =>
      (room = true → d.out.filled + maxRecord ≤ outboundCeiling) ∧
        (room = false → d.out.written < d.out.filled) := by
  rw [ensureRoom]
  refine Goes.get ?_
  split
  · rename_i hroom
    exact Goes.pure ⟨fun _ => by simpa [OutboundBuffer.roomForRecord] using hroom, by simp⟩
  · exact (flush_goes cx c).mono fun sent d ⟨hempty, hless⟩ =>
      ⟨fun h => room_of_empty (hempty h), hless⟩

variable {c : Connection β ν}

theorem pollShutdown_moves (hsent : c.closing = some .written ∨ c.out.bytes = []) :
    Moves (Step P D) (pollShutdown cx) c fun _ _ => True := by
  have hstep (stream : β) (answer : Poll (Except Unit Unit)) :
      ReflTransGen (Step P D) c (shutDown c stream answer) := .single (.shutdown stream answer hsent)
  rw [pollShutdown]
  refine Moves.get ?_
  rcases AsyncByteStream.pollShutdown cx c.stream with ⟨answer, stream⟩
  match answer with
  | .pending =>
    refine (moves_of_ok (a := .pending) ?_).mpr ⟨hstep stream .pending, trivial⟩
    rfl
  | .ready (.ok ()) =>
    refine (moves_of_ok (a := .ready ()) ?_).mpr ⟨hstep stream (.ready (.ok ())), trivial⟩
    rfl
  | .ready (.error ()) =>
    refine Moves.bind (Q := fun _ d => d = shutDown c stream (.ready (.error ())))
      ((moves_of_ok set_apply).mpr ⟨hstep stream (.ready (.error ())), rfl⟩) ?_
    rintro _ d rfl
    exact (moves_of_error (failWith_apply _ _)).mpr (.single (.latch _))

include hP

theorem packVectored_builds (stream : Option StreamId) (f : Fragments) (fin : Bool) (room : ℕ)
    (conn : Conn ν) :
    Ensures (packVectored stream f fin room) conn
      (fun r conn' => conn.Extends P conn' ∧ (LawfulDwnx ν → r.1.bytes.length ≤ room))
      fun _ conn' => conn.Extends P conn' :=
  packVectored_extends (fun _ _ => hP _ rfl) stream f fin room conn

omit [AsyncByteStream β] in
theorem produce_goes (request : VectoredWriteRequest)
    (hroom : c.out.filled + maxRecord ≤ outboundCeiling)
    (hlive : c.closing = none ∨ c.terminal = none) :
    Goes P D (produce request) c fun _ _ => True :=
  serialise_goes (packVectored_builds hP _ _ _) (by rwa [Nat.min_self]) hlive

theorem produceLoop_goes (fuel : ℕ) :
    ∀ c : Connection β ν, Goes P D (produceLoop cx fuel) c fun ended d =>
      ended = false → d.out.written < d.out.filled := by
  induction fuel with
  | zero => intro c; exact Moves.outOfFuel
  | succ fuel ih =>
    intro c
    rw [produceLoop]
    refine Goes.bind (ensureRoom_goes cx c) ?_
    rintro room d - ⟨hroom, hless⟩
    cases room with
    | false => exact Goes.pure fun _ => hless rfl
    | true =>
      refine Goes.get ?_
      split
      · exact Goes.pure (by simp)
      · rename_i hgo
        have hclosing : d.closing = none := by
          cases h : d.closing <;> simp_all
        refine Goes.bind (produce_goes hP controlOnly (hroom rfl) (.inl hclosing)) ?_
        rintro ⟨produced, f⟩ e - -
        dsimp only
        split
        · exact Goes.modify (.pending _) ⟨rfl, rfl, rfl⟩ (Goes.pure (by simp))
        · exact ih e

variable (stream : StreamId) (mode : Flush)

theorem writeSide_goes (c : Connection β ν) :
    Goes P D (writeSide fuel cx mode) c fun _ d =>
      mode = .everything → d.out.bytes = [] ∨ d.out.written < d.out.filled := by
  rw [writeSide]
  refine Goes.bind (produceLoop_goes hP cx fuel c) ?_
  intro ended d _ hless
  cases ended with
  | false => exact Goes.pure fun _ => .inr (hless rfl)
  | true =>
    simp only [if_true]
    split
    · refine Goes.bind (flush_goes cx d) ?_
      intro sent e _ ⟨hempty, hpartly⟩
      refine Goes.pure fun _ => ?_
      cases sent with
      | true => exact .inl (hempty rfl)
      | false => exact .inr (hpartly rfl)
    · rename_i hmode
      exact Goes.pure fun h => absurd h hmode

theorem drainPending_goes (c : Connection β ν) :
    Goes P D (drainPending fuel cx) c fun drained d => drained = true → d.out.bytes = [] := by
  rw [drainPending]
  refine Goes.bind (writeSide_goes hP fuel cx .everything c) ?_
  intro _ d _ hsent
  refine Goes.get (Goes.pure fun hdrained => ?_)
  rcases hsent rfl with h | h
  · exact h
  · exact absurd (of_decide_eq_true hdrained) (by omega)

omit hP [AsyncByteStream β] in
theorem ended_goes {α : Type} {Q : α → Connection β ν → Prop} (c : Connection β ν) :
    Goes P D (ended : ConnectionM β ν α) c Q := by
  rw [ended]
  refine Goes.get ?_
  split
  · exact Goes.failWith
  · split <;> exact Goes.failWith

omit hP [AsyncByteStream β] in
theorem peerClosed_goes {α : Type} {Q : α → Connection β ν → Prop} (c : Connection β ν) :
    Goes P D (peerClosed : ConnectionM β ν α) c Q := Goes.get Goes.failWith

omit [AsyncByteStream β] in
theorem read_extends (bytes : Bytes) (conn : Conn ν) :
    conn.Extends P
      (if conn.maxDataLeft < (conn.read bytes).2.maxDataLeft then
        { (conn.read bytes).2 with
          signals := (conn.read bytes).2.signals.wakeCredit }.pushEvent
            (.connectionDataCredit (conn.read bytes).2.maxDataLeft)
      else (conn.read bytes).2) := by
  have hread : conn.Extends P (conn.read bytes).2 :=
    Conn.withBridge_extends _ _ (fun _ => hP _ rfl) _
  split
  · exact hread.trans (Conn.pushEvent_extends _ _ _)
  · exact hread

omit [AsyncByteStream β] in
theorem processInbound_goes (bytes : Bytes) (c : Connection β ν) :
    Goes P D (processInbound bytes) c fun _ _ => True := by
  rw [processInbound]
  refine Goes.get (Goes.set (.framer _) ⟨rfl, rfl, rfl⟩ ?_)
  split
  · exact Goes.failWith
  · have hread := read_extends hP bytes c.conn
    refine Goes.get (Goes.steps set_apply (.tail (.single ⟨.native hread, rfl, rfl⟩)
      ⟨.pending true, rfl, rfl⟩) ⟨rfl, rfl, rfl⟩ ?_)
    split
    · exact Goes.pure trivial
    · exact peerClosed_goes _
    · exact Goes.failWith

theorem readOnce_goes (c : Connection β ν) :
    Goes P D (readOnce cx) c fun _ _ => True := by
  rw [readOnce]
  refine Goes.get ?_
  split
  · exact Goes.modify (.signal _) ⟨rfl, rfl, rfl⟩ (Goes.pure trivial)
  · refine Goes.set (.stream _) ⟨rfl, rfl, rfl⟩ ?_
    split
    · exact Goes.pure trivial
    · exact Goes.failWith
    · split
      · exact ended_goes _
      · exact processInbound_goes hP _ _

theorem readSide_goes (fuel : ℕ) :
    ∀ c : Connection β ν, Goes P D (readSide cx fuel) c fun _ _ => True := by
  induction fuel with
  | zero => intro c; exact Moves.outOfFuel
  | succ fuel ih =>
    intro c
    rw [readSide]
    refine Goes.bind (readOnce_goes hP cx c) ?_
    intro more d _ _
    cases more with
    | false => exact Goes.pure trivial
    | true => exact ih d

theorem respond_goes (c : Connection β ν) :
    Goes P D (respond fuel cx mode) c fun _ _ => True := by
  rw [respond]
  refine Goes.get ?_
  split
  · exact (writeSide_goes hP fuel cx mode c).mono fun _ _ _ => trivial
  · exact Goes.pure trivial

theorem pump_goes (c : Connection β ν) :
    Goes P D (pump fuel cx mode) c fun _ d => d.terminal = none := by
  rw [pump]
  refine Goes.bind (checkTerminal_goes c) fun _ d _ hopen => ?_
  refine Goes.bind (writeSide_goes hP fuel cx mode d) fun _ e hde _ => ?_
  refine Goes.bind (readSide_goes hP cx fuel e) fun _ f hef _ => ?_
  refine Moves.mono (respond_goes hP fuel cx mode f) ?_
  rintro _ g ⟨hfg, -⟩
  exact ⟨hfg, hfg.1.trans (hef.1.trans (hde.1.trans hopen))⟩

theorem pumpBounded_goes (c : Connection β ν) :
    Goes P D (pumpBounded fuel cx mode) c fun _ _ => True := by
  rw [pumpBounded]
  refine Goes.bind (checkTerminal_goes c) fun _ d _ _ => ?_
  refine Goes.bind (writeSide_goes hP fuel cx mode d) fun _ e _ _ => ?_
  refine Goes.bind (readOnce_goes hP cx e) fun read f _ _ => ?_
  exact Goes.bind (respond_goes hP fuel cx mode f) fun _ _ _ _ => Goes.pure trivial

theorem pollPump_goes (c : Connection β ν) :
    Goes P D (pollPump fuel cx) c fun _ _ => True := by
  rw [pollPump]
  refine Goes.bind (checkTerminal_goes c) fun _ d _ _ => ?_
  refine Goes.bind (writeSide_goes hP fuel cx .everything d) fun _ e _ _ => ?_
  refine Goes.get ?_
  split <;> exact Goes.pure trivial

theorem pollPumpBuffered_goes (c : Connection β ν) :
    Goes P D (pollPumpBuffered fuel cx) c fun _ _ => True := by
  have hdone (c : Connection β ν) : Goes P D (do
      if (← get).out.roomForRecord then pure (.ready ()) else pure .pending :
        ConnectionM β ν (Poll Unit)) c fun _ _ => True := by
    refine Goes.get ?_
    split <;> exact Goes.pure trivial
  rw [pollPumpBuffered]
  refine Goes.bind (pumpBounded_goes hP fuel cx .whenFull c) fun read d _ _ => ?_
  cases read with
  | true => exact Goes.modify (.signal _) ⟨rfl, rfl, rfl⟩ (hdone _)
  | false => exact hdone d

theorem pollNextEvent_moves (hD : D) (fuel : ℕ) (cx : Waker) (c : Connection β ν) :
    Moves (Quiet P D) (pollNextEvent fuel cx) c fun _ _ => True := by
  rw [pollNextEvent]
  refine Moves.bind (takeEvent_goes hD c) fun first d _ => ?_
  cases first with
  | some event => exact Moves.pure trivial
  | none =>
    refine Moves.bind (Moves.attempt (Q := fun _ _ => True)
      (Moves.mono (pumpBounded_goes hP fuel cx .whenFull d) fun _ _ _ => trivial)
      fun _ _ _ => trivial) fun pumped e _ => ?_
    show Moves (Quiet P D) (eventBehindPump cx pumped) e fun _ _ => True
    unfold eventBehindPump
    refine Moves.bind (takeEvent_goes hD e) fun second f _ => ?_
    cases second with
    | some event => exact Moves.pure trivial
    | none =>
      match pumped with
      | .ok true =>
        have hwake : Goes P D (do modify (·.signal (·.wake cx)); pure (.pending : Poll Event)) f
            fun _ _ => True := Goes.modify (.signal _) ⟨rfl, rfl, rfl⟩ (Goes.pure trivial)
        exact Moves.mono hwake fun _ _ _ => trivial
      | .ok false => exact Moves.pure trivial
      | .error error => exact Moves.fail

omit hP in
theorem pollNextEvent_first {event : Event}
    {rest : List Event} (h : c.conn.events = event :: rest) :
    pollNextEvent fuel cx c = .ok (.ready event) (c.deliver event rest) := by
  rw [pollNextEvent, bind_ok (takeEvent_first h)]
  rfl

omit hP in
theorem pollNextEvent_ended {error : Error}
    (h : c.terminal = some error) (hevents : c.conn.events = []) :
    pollNextEvent fuel cx c = .error (.failed error) c := by
  have hpump : (attempt (pumpBounded fuel cx .whenFull) : ConnectionM β ν (Except Error Bool)) c =
      .ok (.error error) c := by
    rw [attempt, pumpBounded, bind_error (checkTerminal_ended h)]
  rw [pollNextEvent, bind_ok (takeEvent_empty hevents)]
  show (attempt (pumpBounded fuel cx .whenFull) >>= _) c = _
  rw [bind_ok hpump, eventBehindPump.eq_def, bind_ok (takeEvent_empty hevents)]
  rfl

omit [AsyncByteStream β] in
theorem tryOpen_goes (kind : Directionality) (c : Connection β ν) :
    Goes P D (tryOpen kind) c fun _ _ => True := by
  rw [tryOpen]
  refine Goes.bind (checkTerminal_goes c) fun _ d _ _ => ?_
  refine Goes.bind (native_goes (fun conn => Conn.withBridge_extends _ _ (fun _ => hP _ rfl) conn) d)
    fun result e _ _ => ?_
  cases result with
  | opened stream => exact Goes.modify (.pending _) ⟨rfl, rfl, rfl⟩ (Goes.pure trivial)
  | blocked => exact Goes.pure trivial

omit [AsyncByteStream β] in
theorem shutdownStream_goes (half : Shutdown) (code : ℕ) (c : Connection β ν) :
    Goes P D (shutdownStream stream half code) c fun _ _ => True := by
  rw [shutdownStream]
  refine Goes.bind (checkTerminal_goes c) fun _ d _ _ => ?_
  refine Goes.bind (native_goes (fun conn => Conn.withBridge_extends _ _ (fun _ => hP _ rfl) conn) d)
    fun _ e _ _ => ?_
  exact Goes.modifyLast (.pending _) ⟨rfl, rfl, rfl⟩ trivial

theorem writeRecord_goes (data : Bytes) (fin : Bool)
    (hopen : c.terminal = none) :
    Goes P D (writeRecord cx stream data fin) c fun _ _ => True := by
  rw [writeRecord]
  refine Goes.bind (ensureRoom_goes cx c) ?_
  rintro room d hcd ⟨hroom, -⟩
  cases room with
  | false => exact Goes.pure trivial
  | true =>
    refine Goes.bind (produce_goes hP _ (hroom rfl) (.inr (hcd.1.trans hopen))) ?_
    rintro ⟨produced, f⟩ e - -
    exact Goes.pure trivial

omit hP [AsyncByteStream β] in
theorem parkWrite_goes (written : ℕ) (c : Connection β ν) :
    Goes P D (parkWrite cx written) c fun _ _ => True := by
  rw [parkWrite]
  split
  · exact Goes.pure trivial
  · exact Goes.modify (.signal _) ⟨rfl, rfl, rfl⟩ (Goes.pure trivial)

theorem writeStreamRecords_goes (data : Bytes) (fin : Bool)
    (fuel : ℕ) : ∀ (written : ℕ) (c : Connection β ν), c.terminal = none →
      Goes P D (writeStreamRecords cx stream data fin fuel written) c fun _ _ => True := by
  induction fuel with
  | zero => intro written c _; exact Moves.outOfFuel
  | succ fuel ih =>
    intro written c hopen
    rw [writeStreamRecords]
    refine Goes.bind (writeRecord_goes hP cx stream _ fin hopen) ?_
    intro wrote d hcd _
    cases wrote with
    | none => exact Goes.pure trivial
    | some produced =>
      dsimp only
      split
      · split
        · exact Goes.fail
        · exact Goes.pure trivial
      · exact parkWrite_goes cx _ d
      · split
        · exact Goes.pure trivial
        split
        · exact parkWrite_goes cx _ d
        · exact ih _ d (hcd.1.trans hopen)

theorem pollWriteStream_goes (data : Bytes) (fin : Bool)
    (c : Connection β ν) : Goes P D (pollWriteStream fuel cx stream data fin) c fun _ _ => True := by
  rw [pollWriteStream]
  refine Goes.bind (pump_goes hP fuel cx .whenFull c) fun _ d _ hopen => ?_
  refine Goes.bind (writeStreamRecords_goes hP cx stream data fin _ 0 d hopen) fun _ e _ _ => ?_
  exact Goes.bind (flush_goes cx e) fun _ _ _ _ => Goes.pure trivial

omit hP [AsyncByteStream β] [Dwnx ν] in
theorem room_of_roomFor {o : OutboundBuffer} {remaining room : ℕ} {continuing : Bool}
    (h : o.roomFor remaining continuing = some room) :
    o.filled + min room maxRecord ≤ outboundCeiling := by
  have hrecord : 0 < maxRecord := by decide
  unfold OutboundBuffer.roomFor at h
  dsimp only at h
  split at h
  · obtain rfl : maxRecord = room := by simpa using h
    omega
  split at h
  · rename_i hcontinuing
    have hspace : remaining < outboundCeiling - o.filled := by simp_all
    obtain rfl : outboundCeiling - o.filled = room := by simpa using h
    omega
  · exact absurd h (by simp)

omit [AsyncByteStream β] in
theorem tryWriteLoop_goes (fin : Bool) (offered fuel : ℕ) :
    ∀ (f : Fragments) (taken : ℕ) (c : Connection β ν), c.terminal = none →
      Goes P D (tryWriteLoop stream fin offered fuel f taken) c fun _ _ => True := by
  induction fuel with
  | zero => intro f taken c _; exact Moves.outOfFuel
  | succ fuel ih =>
    intro f taken c hopen
    rw [tryWriteLoop]
    refine Goes.get ?_
    split
    · exact Goes.pure trivial
    · rename_i room hroom
      refine Goes.bind (serialise_goes (packVectored_builds hP _ _ _) (room_of_roomFor hroom)
        (.inr hopen)) ?_
      rintro ⟨produced, f'⟩ d hcd -
      dsimp only
      split
      · exact Goes.pure trivial
      · exact Goes.pure trivial
      · split
        · exact Goes.pure trivial
        split
        · exact Goes.pure trivial
        · exact ih f' _ d (hcd.1.trans hopen)

omit [AsyncByteStream β] in
theorem tryWriteStreamVectored_goes (slices : List Bytes) (fin : Bool)
    (c : Connection β ν) : Goes P D (tryWriteStreamVectored stream slices fin) c fun _ _ => True := by
  rw [tryWriteStreamVectored]
  exact Goes.bind (checkTerminal_goes c) fun _ d _ hopen => tryWriteLoop_goes hP _ _ _ _ _ _ d hopen

omit [AsyncByteStream β] in
theorem extendStreamLimit_goes (kind : Directionality) (count : ℕ) (c : Connection β ν) :
    Goes P D (extendStreamLimit kind count) c fun _ _ => True := by
  rw [extendStreamLimit]
  refine Goes.bind (checkTerminal_goes c) fun _ d _ _ => ?_
  have hconn : d.conn.Extends P (d.conn.extendMaxStreams kind count).2 :=
    Conn.withBridge_extends _ _ (fun _ => hP _ rfl) _
  refine (moves_of_ok modify_apply).mpr ⟨.tail (.single ⟨.native hconn, rfl, rfl⟩)
    ⟨.pending true, rfl, rfl⟩, ⟨rfl, rfl, rfl⟩, trivial⟩

omit hP in
theorem completeClose_moves (hclosing : c.closing = some .queued ∨ c.closing = some .written) :
    Moves (Step P D) (completeClose cx) c fun _ _ => True := by
  rw [completeClose]
  refine Moves.get ?_
  split
  · rename_i hqueued
    refine Moves.bind (flush_goes (P := P) (D := D) cx c).moves ?_
    rintro sent d ⟨⟨-, hsame, -⟩, hempty, -⟩
    cases sent with
    | false => exact Moves.pure trivial
    | true =>
      refine Moves.bind (Q := fun _ e => e.closing = some .written) ?_
        fun _ e he => pollShutdown_moves cx (.inl he)
      exact (moves_of_ok modify_apply).mpr
        ⟨.single (.written (hempty rfl) (hsame.trans hqueued)), rfl⟩
  · rename_i hqueued
    exact pollShutdown_moves cx (.inl (hclosing.resolve_left hqueued))

omit hP [AsyncByteStream β] [Dwnx ν] in
theorem queueClose_apply (reason : CloseReason) (c : Connection β ν) :
    queueClose reason c = .ok () (queued c reason) := rfl

theorem pollClose_moves (reason : CloseReason) (c : Connection β ν) :
    Moves (Step P D) (pollClose fuel cx reason) c fun _ _ => True := by
  rw [pollClose]
  refine Moves.get ?_
  split
  · exact Moves.pure trivial
  · rename_i hcomplete
    split
    · rename_i hnone
      refine Moves.bind (drainPending_goes hP fuel cx c).moves ?_
      rintro drained d ⟨⟨-, hsame, -⟩, hempty⟩
      cases drained with
      | false => exact Moves.pure trivial
      | true =>
        refine Moves.bind (Q := fun _ e => e.closing = some .queued) ?_
          fun _ e he => completeClose_moves cx (.inl he)
        refine (moves_of_ok (queueClose_apply reason d)).mpr
          ⟨.single (.queueClose reason (hsame.trans hnone) (hempty rfl)), ?_⟩
        rw [queued_eq]
    · rename_i hsome
      refine completeClose_moves cx ?_
      match hclosing : c.closing with
      | none => exact absurd hclosing hsome
      | some .queued => exact .inl rfl
      | some .written => exact .inr rfl
      | some .complete => exact absurd hclosing hcomplete

theorem pollFinish_moves (c : Connection β ν) :
    Moves (Step P D) (pollFinish fuel cx) c fun _ _ => True := by
  rw [pollFinish]
  refine Moves.get ?_
  split
  · exact Moves.pure trivial
  · refine Moves.bind (drainPending_goes hP fuel cx c).moves ?_
    rintro drained d ⟨-, hempty⟩
    cases drained with
    | false => exact Moves.pure trivial
    | true => exact pollShutdown_moves cx (.inr (hempty rfl))

end Streams

end Programs

/-! ## Credit, and all operations -/

section Credit

theorem extendStreamCredit_goes {P : NativeCall → Prop} {D : Prop} {stream : StreamId} {bytes : ℕ}
    (hP : ∀ answer, P (.extendMaxStreamData stream bytes answer)) (c : Connection β ν) :
    Goes P D (extendStreamCredit stream bytes) c fun _ _ => True := by
  rw [extendStreamCredit]
  refine Goes.bind (checkTerminal_goes c) fun _ d _ _ => ?_
  refine Goes.bind (native_goes (fun conn => Conn.withBridge_extends _ _ hP conn) d)
    fun _ e _ _ => ?_
  exact Goes.modifyLast (.pending _) ⟨rfl, rfl, rfl⟩ trivial

theorem extendConnectionCredit_goes {P : NativeCall → Prop} {D : Prop} {bytes : ℕ}
    (hP : P (.extendMaxData bytes)) (c : Connection β ν) :
    Goes P D (extendConnectionCredit bytes) c fun _ _ => True := by
  rw [extendConnectionCredit]
  refine Goes.bind (checkTerminal_goes c) fun _ d _ _ => ?_
  have hconn : d.conn.Extends P (d.conn.extendMaxData bytes).2 :=
    Conn.withBridge_extends _ _ (fun _ => hP) _
  refine Goes.steps modify_apply (.tail (.single ⟨.native hconn, rfl, rfl⟩)
    ⟨.credit bytes, rfl, rfl⟩) ⟨rfl, rfl, rfl⟩ ?_
  refine Goes.get ?_
  split
  · exact Goes.modify (.signal _) ⟨rfl, rfl, rfl⟩ (Goes.modifyLast (.pending _) ⟨rfl, rfl, rfl⟩ trivial)
  · exact Goes.modifyLast (.pending _) ⟨rfl, rfl, rfl⟩ trivial

end Credit

/-- The native calls an operation may make: a window is extended by what was asked only. -/
def mayCall : Op → NativeCall → Prop
  | .extendStreamCredit stream bytes, call =>
    isCredit call = false ∨ ∃ answer, call = .extendMaxStreamData stream bytes answer
  | .extendConnectionCredit bytes, call => isCredit call = false ∨ call = .extendMaxData bytes
  | _, call => isCredit call = false

/-- The operations that hand an event to the caller. -/
def mayTake : Op → Prop
  | .tryNextEvent | .pollNextEvent _ => True
  | _ => False

theorem map_moves {α γ : Type} {m : ConnectionM β ν α} (f : α → γ)
    {Q : α → Connection β ν → Prop} (h : Moves (Step P D) m c Q) :
    Moves (Step P D) (f <$> m) c fun _ _ => True :=
  Moves.bind h fun _ _ _ => Moves.pure trivial

theorem program_moves [AsyncByteStream β] (fuel : ℕ) (op : Op) (c : Connection β ν) :
    Moves (Step (mayCall op) (mayTake op)) (op.program fuel) c fun _ _ => True := by
  cases op with
  | pollPump cx => exact map_moves _ (pollPump_goes (fun _ => id) fuel cx c).moves
  | pollPumpBuffered cx => exact map_moves _ (pollPumpBuffered_goes (fun _ => id) fuel cx c).moves
  | tryNextEvent => exact map_moves _ (takeEvent_goes trivial c).moves
  | pollNextEvent cx => exact map_moves _ ((pollNextEvent_moves (fun _ => id) trivial fuel cx c).weaken fun _ _ => Quiet.step)
  | tryOpen kind => exact map_moves _ (tryOpen_goes (fun _ => id) kind c).moves
  | pollWriteStream cx stream data fin =>
    exact map_moves _ (pollWriteStream_goes (fun _ => id) fuel cx stream data fin c).moves
  | tryWriteStreamVectored stream slices fin =>
    exact map_moves _ (tryWriteStreamVectored_goes (fun _ => id) stream slices fin c).moves
  | shutdownStream stream half code =>
    exact map_moves _ (shutdownStream_goes (fun _ => id) stream half code c).moves
  | extendStreamCredit stream bytes =>
    exact map_moves _ (extendStreamCredit_goes (fun answer => .inr ⟨answer, rfl⟩) c).moves
  | extendConnectionCredit bytes => exact map_moves _ (extendConnectionCredit_goes (.inr rfl) c).moves
  | extendStreamLimit kind count =>
    exact map_moves _ (extendStreamLimit_goes (fun _ => id) kind count c).moves
  | pollClose cx reason => exact map_moves _ (pollClose_moves (fun _ => id) fuel cx reason c)
  | pollFinish cx => exact map_moves _ (pollFinish_moves (fun _ => id) fuel cx c)

theorem step_steps [AsyncByteStream β] (fuel : ℕ) (op : Op) (c : Connection β ν) :
    ReflTransGen (Step (mayCall op) (mayTake op)) c (op.step fuel c).2 := (program_moves fuel op c).outcome

theorem run_preserves [AsyncByteStream β] {I : Connection β ν → Prop}
    (hI : ∀ P D c d, Step P D c d → I c → I d) (fuel : ℕ) (ops : List Op)
    (hc : I c) : I (run (Op.step fuel) ops c).2 :=
  run_invariant (fun op d hd => invariant_of_steps (hI (mayCall op) (mayTake op)) (step_steps fuel op d) hd) ops hc

end Ngnet.QmuxConnectionSteps
