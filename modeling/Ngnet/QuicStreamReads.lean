import Ngnet.QuicHandlePolls

/-!
# What a reader of a QUIC stream is told

A handle keeps the bytes of a stream, whether it has ended, and the code that it ended with. A reader gets the
bytes in order. The chunk it gets them in says that the stream has ended if it has, whether it was finished or
reset; and the second check of a poll does not look at the code.
-/

namespace Ngnet.QuicStreamReads
open QmuxVarints QmuxStreams InterleavedPrograms QuicHandlePolls
open QuicEndpoint hiding Op Action World
open QmuxRecordWriter (Waker)
open QmuxConnection (Poll)

variable {δ β : Type} {s s' : State δ} {c : ℕ} {stream : StreamId}

/-! ## What was observed of a stream -/

/-- The bytes that an event brings. -/
def bytesIn (stream : StreamId) : Observed → Bytes
  | .data s bytes _ => if s = stream then bytes else []
  | _ => []

/-- The peer has finished the stream. -/
def isFin (stream : StreamId) : Observed → Bool
  | .data s _ fin => s = stream && fin
  | _ => false

/-- The code that the stream has ended with, for a reader. -/
def codeIn (stream : StreamId) : Observed → Option ℕ
  | .closed s receiving _ => if s = stream then receiving else none
  | .reset s code => if s = stream then some code else none
  | _ => none

/-- The stream has ended, in one way or another. -/
def ends (stream : StreamId) : Observed → Bool
  | .data s _ fin => s = stream && fin
  | .closed s _ _ => s = stream
  | .reset s _ => s = stream
  | _ => false

def bytesOf (stream : StreamId) (events : List Observed) : Bytes := events.flatMap (bytesIn stream)

/-- The code of the first reset, or the first close that has one. -/
def codeOf (stream : StreamId) (events : List Observed) : Option ℕ := events.findSome? (codeIn stream)

/-- The slot of a stream, of which some bytes were read. -/
structure Holds (stream : StreamId) (events : List Observed) (read : Bytes) (slot : Incoming) : Prop where
  bytes : read ++ slot.bytes = bytesOf stream events
  finished : slot.finished = events.any (ends stream)
  reset : slot.reset = codeOf stream events

theorem bytes_see (slot : Incoming) (event : Observed) : (slot.see stream event).bytes = slot.bytes ++ bytesIn stream event := by
  cases event
  case data =>
    rw [Incoming.see, bytesIn]
    split
    · rfl
    · simp
  all_goals simp [Incoming.see, bytesIn, apply_ite Incoming.bytes]

theorem finished_see (slot : Incoming) (event : Observed) :
    (slot.see stream event).finished = (slot.finished || ends stream event) := by
  cases event
  all_goals
    simp only [Incoming.see, ends]
    try split
    all_goals simp_all

theorem reset_see (slot : Incoming) (event : Observed) : (slot.see stream event).reset = slot.reset.or (codeIn stream event) := by
  cases event
  case data => simp [Incoming.see, codeIn, apply_ite Incoming.reset]
  case closed =>
    rw [Incoming.see, codeIn]
    split
    · rfl
    · simp
  case reset =>
    rw [Incoming.see, codeIn]
    split
    · cases slot.reset <;> rfl
    · simp
  all_goals simp [Incoming.see, codeIn]

variable {events : List Observed} {slot : Incoming}

theorem Holds.see {read : Bytes} (h : Holds stream events read slot)
    (event : Observed) : Holds stream (events ++ [event]) read (slot.see stream event) where
  bytes := by
    rw [bytes_see, ← List.append_assoc, h.bytes]
    simp [bytesOf]
  finished := by
    rw [finished_see, h.finished]
    simp
  reset := by
    rw [reset_see, h.reset]
    simp [codeOf, List.findSome?_append]

theorem Holds.seeAll {read : Bytes} (h : Holds stream events read slot)
    (more : List Observed) : Holds stream (events ++ more) read (more.foldl (·.see stream ·) slot) := by
  induction more generalizing events slot with
  | nil => simpa using h
  | cons event more ih =>
    have hnext := ih (h.see event)
    rw [List.append_assoc] at hnext
    exact hnext

theorem ended_of_code {code : ℕ} (h : codeOf stream events = some code) :
    events.any (ends stream) = true := by
  obtain ⟨event, hmem, hcode⟩ := List.exists_of_findSome?_eq_some h
  refine List.any_eq_true.mpr ⟨event, hmem, ?_⟩
  cases event
  case closed other receiving sending =>
    rw [codeIn] at hcode
    split at hcode
    · simpa [ends]
    · cases hcode
  case reset other code =>
    rw [codeIn] at hcode
    split at hcode
    · simpa [ends]
    · cases hcode
  all_goals cases hcode

/-! ## Bookkeeping -/

/-- What was recorded of a connection was taken in, or is with the driver, or waits to be taken in. -/
structure Accounts (c : ℕ) (stream : StreamId) (s : State δ) : Prop where
  order : s.held c ≠ [] → (s.shareds c).observed = []
  bytes : bytesOf stream (s.recorded c) =
    bytesOf stream (s.absorbed c) ++ bytesOf stream (s.held c ++ (s.shareds c).observed)
  fin : (s.absorbed c ++ (s.held c ++ (s.shareds c).observed)).any (isFin stream) = true →
    (s.recorded c).any (isFin stream) = true

theorem Accounts.of_eq (h : Accounts c stream s) (hrecorded : s'.recorded c = s.recorded c) (habsorbed : s'.absorbed c = s.absorbed c)
    (hheld : s'.held c = s.held c) (hobserved : (s'.shareds c).observed = (s.shareds c).observed) : Accounts c stream s' := by
  constructor
  · rw [hheld, hobserved]
    exact h.order
  · rw [hrecorded, habsorbed, hheld, hobserved]
    exact h.bytes
  · rw [hrecorded, habsorbed, hheld, hobserved]
    exact h.fin

theorem bytesOf_append (events more : List Observed) : bytesOf stream (events ++ more) = bytesOf stream events ++ bytesOf stream more :=
  List.flatMap_append

theorem Accounts.absorb (h : Accounts c stream s) : Accounts c stream (s.absorb c) := by
  have habsorbed : (s.absorb c).absorbed c = s.absorbed c ++ (s.shareds c).observed := Function.update_self ..
  have hobserved : ((s.absorb c).shareds c).observed = [] := by
    simp [State.absorb, State.modifyShared]
  -- While the driver holds what was observed, there is nothing to take in.
  by_cases hheld : s.held c = []
  · constructor
    · exact fun _ => hobserved
    · rw [habsorbed, hobserved, bytesOf_append]
      have hbytes := h.bytes
      rw [hheld, List.nil_append] at hbytes
      have hempty : (s.absorb c).held c = [] := hheld
      rw [hempty, ← hbytes]
      exact (List.append_nil _).symm
    · rw [habsorbed, hobserved]
      have hfin := h.fin
      rw [hheld] at hfin
      simpa [State.absorb, State.modifyShared, State.modifyHandle, hheld] using hfin
  · have hnone := h.order hheld
    refine h.of_eq rfl ?_ rfl ?_
    · rw [habsorbed, hnone, List.append_nil]
    · rw [hobserved, hnone]

theorem takeOpened_events (stream : StreamId) (bidi : Bool) (events : List Observed) :
    bytesOf stream (events.eraseP fun event => (State.openedAs bidi event).isSome) = bytesOf stream events ∧
      (events.eraseP fun event => (State.openedAs bidi event).isSome).any (isFin stream) = events.any (isFin stream) := by
  induction events with
  | nil => exact ⟨rfl, rfl⟩
  | cons event events ih =>
    rw [List.eraseP_cons]
    cases hopened : (State.openedAs bidi event).isSome with
    | true =>
      cases event
      case locallyOpened => exact ⟨rfl, rfl⟩
      all_goals cases hopened
    | false =>
      constructor
      · exact congrArg (bytesIn stream event ++ ·) ih.1
      · exact congrArg (isFin stream event || ·) ih.2

theorem accounts_act (h : Accounts c stream s) {action : Action δ} (hfair : action ≠ .absorb c) : Accounts c stream (s.act action) := by
  have hmodify : ∀ (d : ℕ) (f : ConnectionShared → ConnectionShared), (∀ shared, (f shared).observed = shared.observed) →
      ((s.modifyShared d f).shareds c).observed = (s.shareds c).observed := by
    intro d f hf
    by_cases hd : c = d
    · subst hd
      simp [State.modifyShared, hf]
    · simp [State.modifyShared, hd]
  cases action with
  | observe d event =>
    rw [State.act]
    split
    · rename_i hheld
      by_cases hd : c = d
      · subst hd
        constructor
        · exact fun hne => (hne hheld).elim
        · have hbytes := h.bytes
          simp only [hheld, List.nil_append] at hbytes
          simp [State.record, State.modifyShared, State.onWakers, ConnectionShared.observe, hheld, bytesOf_append, hbytes]
        · have hfin := h.fin
          simp only [hheld, List.nil_append, List.any_append, Bool.or_eq_true] at hfin
          simp only [State.record, State.modifyShared, State.onWakers, Function.update_self, ConnectionShared.observe, hheld,
            List.nil_append, List.any_append, Bool.or_eq_true]
          rintro (hmem | hmem | hmem)
          · exact .inl (hfin (.inl hmem))
          · exact .inl (hfin (.inr hmem))
          · exact .inr hmem
      · refine h.of_eq ?_ rfl rfl ?_
        · simp [State.record, State.onWakers, hd]
        · simp [State.record, State.modifyShared, State.onWakers, hd]
    · exact h
  | takeObserved d =>
    rw [State.act]
    split
    · rename_i hheld
      by_cases hd : c = d
      · subst hd
        constructor
        · simp [State.modifyShared]
        · simpa [State.modifyShared, hheld] using h.bytes
        · simpa [State.modifyShared, hheld] using h.fin
      · refine h.of_eq rfl rfl ?_ ?_
        · simp [hd]
        · simp [State.modifyShared, hd]
    · exact h
  | putBack d =>
    by_cases hd : c = d
    · subst hd
      have hback : (s.shareds c).observed ++ s.held c = s.held c ++ (s.shareds c).observed := by
        by_cases hheld : s.held c = []
        · simp [hheld]
        · simp [h.order hheld]
      constructor
      · simp [State.act, State.onWakers]
      · simpa [State.act, State.modifyShared, State.onWakers, hback] using h.bytes
      · simpa [State.act, State.modifyShared, State.onWakers, hback] using h.fin
    · refine h.of_eq rfl rfl ?_ ?_
      · simp [State.act, State.onWakers, hd]
      · simp [State.act, State.modifyShared, State.onWakers, hd]
  | takeOpened d bidi =>
    by_cases hd : c = d
    · subst hd
      obtain ⟨hbytes, hfin⟩ := takeOpened_events stream bidi (s.shareds c).observed
      constructor
      · intro hheld
        have hnone := h.order hheld
        simp [State.act, State.takeOpened, State.modifyShared, hnone]
      · simpa [State.act, State.takeOpened, State.modifyShared, bytesOf_append, hbytes] using h.bytes
      · simpa only [State.act, State.takeOpened, State.modifyShared, Function.update_self, List.any_append, hfin] using h.fin
    · refine h.of_eq rfl rfl rfl ?_
      simp [State.act, State.takeOpened, State.modifyShared, hd]
  | absorb d =>
    have hd : c ≠ d := by
      rintro rfl
      exact hfair rfl
    refine h.of_eq rfl ?_ rfl ?_
    · simp [State.act, State.absorb, hd]
    · simp [State.act, State.absorb, State.modifyShared, State.modifyHandle, hd]
  | markEstablished d =>
    refine h.of_eq ?_ ?_ ?_ ?_
    all_goals
      rw [State.act]
      split
    all_goals first
      | rfl
      | exact hmodify d ({ · with established := true }) fun _ => rfl
  | recordFailure d error =>
    exact h.of_eq rfl rfl rfl (hmodify d (fun shared => { shared with failure := some (shared.failure.getD error) }) fun _ => rfl)
  | markClosed d =>
    rw [State.act]
    split
    · exact h.of_eq rfl rfl rfl (hmodify d ({ · with closed := true }) fun _ => rfl)
    · exact h
  | _ => exact h.of_eq rfl rfl rfl rfl

/-! ## What a reader does -/

/-- What a reader has found, and what it has taken and not returned yet. -/
inductive Reading
  | idle
  | nothing
  | found (again : Bool) (slot : Incoming)
  | taken (slot : Incoming)
  deriving DecidableEq, Repr

namespace Reading

def inHand : Reading → Bytes
  | taken slot => slot.bytes
  | _ => []

/-- What a poll may return. -/
def Told (k : Reading) : Poll (Except Error Chunk) → Prop
  | .pending => k = nothing
  | .ready (.ok chunk) => ∃ slot, k = taken slot ∧ chunk = ⟨slot.bytes, slot.finished⟩
  | .ready (.error error) => k = nothing ∨
    ∃ slot code, k = found false slot ∧ slot.bytes = [] ∧ slot.reset = some code ∧ error = streamReset code

def next : {β : Type} → Reading → Op δ β → β → Reading
  | _, _, .absorb _, _ => idle
  | _, _, .await _, _ => idle
  | _, _, .polled _ _, _ => idle
  | _, _, .readable again _ _, answer =>
    match answer with
    | some slot => found again slot
    | none => nothing
  | _, k, .takeBytes _ _, _ =>
    match k with
    | found _ slot => taken slot
    | k => k
  | _, k, _, _ => k

def Allows (c : ℕ) (stream : StreamId) {β : Type} (k : Reading) : Op δ β → Prop
  | .absorb d => d = c ∧ (k = idle ∨ k = nothing)
  | .readable _ d other => d = c ∧ other = stream ∧ k = idle
  | .takeBytes d other => d = c ∧ other = stream ∧
    ∃ again slot, k = found again slot ∧ (again = false → slot.bytes = [] → slot.reset = none)
  | .polled other result => other = stream ∧ k.Told result
  | .await _ => k = idle
  | .isClosed _ | .failure _ | .register _ _ | .push _ _ => True
  | _ => False

end Reading

open Reading in
def reading (c : ℕ) (stream : StreamId) : Protocol (Op δ) Reading := ⟨next, Allows c stream, fun _ _ => True⟩

theorem follows_takeChunk {again : Bool} (h : again = false → slot.bytes = [] → slot.reset = none) :
    Follows (reading c stream) (fun result k => k.Told result) (fun _ _ => False)
      (takeChunk c stream slot : PollM δ (Poll (Except Error Chunk))) (.found again slot) := by
  rw [takeChunk]
  refine ⟨⟨rfl, rfl, again, slot, rfl, h⟩, fun _ _ => ?_⟩
  split
  · exact ⟨slot, rfl, rfl⟩
  · exact ⟨True.intro, fun _ _ => ⟨slot, rfl, rfl⟩⟩

theorem follows_pollReadStream (waker : Waker) :
    Follows (reading c stream) (fun result k => k.Told result) (fun _ _ => False)
      (pollReadStream c stream waker : PollM δ (Poll (Except Error Chunk))) .idle := by
  rw [pollReadStream]
  refine follows_bind.mpr ⟨⟨rfl, .inl rfl⟩, fun _ _ => follows_bind.mpr ⟨⟨rfl, rfl, rfl⟩, fun answer _ => ?_⟩⟩
  cases answer with
  | some slot =>
    refine follows_pure.mpr ?_
    dsimp only
    split
    · rename_i code hbytes hreset
      exact .inr ⟨slot, code, rfl, hbytes, hreset, rfl⟩
    · rename_i hother
      refine follows_takeChunk fun _ hbytes => ?_
      rw [← Option.not_isSome_iff_eq_none, Option.isSome_iff_exists]
      rintro ⟨code, hreset⟩
      exact hother code hbytes hreset
  | none =>
    refine ⟨True.intro, fun closed _ => ?_⟩
    cases closed with
    | true => exact ⟨True.intro, fun _ _ => .inl rfl⟩
    | false =>
      refine ⟨True.intro, fun _ _ => ⟨⟨rfl, .inr rfl⟩, fun _ _ => ⟨⟨rfl, rfl, rfl⟩, fun answer _ => ?_⟩⟩⟩
      cases answer with
      | some slot => exact follows_takeChunk nofun
      | none => exact rfl

theorem follows_reads (calls : List Call) : Follows (reading c stream) (fun _ k => k = .idle) (fun _ _ => False)
    (reads c stream calls : PollM δ Unit) .idle := by
  induction calls with
  | nil => exact rfl
  | cons call calls ih =>
    cases call with
    | read waker =>
      refine follows_bind.mpr ⟨rfl, fun _ _ => follows_bind.mpr ?_⟩
      refine Follows.mono (follows_pollReadStream waker) (fun result k htold => ?_) fun _ _ h => h
      exact ⟨⟨rfl, htold⟩, fun _ _ => ih⟩
    | other => exact ⟨⟨rfl, .inl rfl⟩, fun _ _ => ih⟩

/-! ## Runs -/

/-- The chunks that were read of a stream. -/
def chunksOf (stream : StreamId) (s : State δ) : List Chunk := (s.returned.filter (·.1 = stream)).map (·.2)

def readBytes (stream : StreamId) (s : State δ) : Bytes := (chunksOf stream s).flatMap (·.bytes)

/-- What a reader finds has ended only if the peer has finished it, unless the first check finds it reset with
nothing left to read; and the second check does not find that. -/
def Honest (stream : StreamId) (events : List Observed) (again : Bool) (slot : Incoming) : Prop :=
  (slot.finished = true → events.any (isFin stream) = true ∨ (again = false ∧ slot.bytes = [] ∧ slot.reset.isSome = true)) ∧
    (again = true → slot.bytes = [] → slot.reset = none)

instance (stream : StreamId) (events : List Observed) (again : Bool) (slot : Incoming) :
    Decidable (Honest stream events again slot) :=
  inferInstanceAs (Decidable ((_ → _ ∨ _) ∧ (_ → _ → _)))

/-- Where a reader looks for something to read, it is told no more than the truth. -/
def EndsSeen (c : ℕ) (stream : StreamId) {β : Type} (op : Op δ β) (s : State δ) : Prop :=
  match op with
  | .readable again _ _ => Honest stream (s.absorbed c) again ((s.handles c).slotOf stream)
  | _ => True

instance (c : ℕ) (stream : StreamId) {β : Type} (op : Op δ β) (s : State δ) : Decidable (EndsSeen c stream op s) :=
  match op with
  | .readable _ _ _ => inferInstanceAs (Decidable (Honest ..))
  | .await _ | .isEstablished _ | .isClosed _ | .failure _ | .isGone | .register _ _ | .takeOpened _ _ | .absorb _
  | .takeBytes _ _ | .push _ _ | .takePending _ | .takeReady | .takeDetached _ | .polled _ _ => .isTrue True.intro

/-- What was read is what was received, in order, and ends where the peer has finished it. -/
structure ReadsRight (c : ℕ) (stream : StreamId) (s : State δ) : Prop where
  bytes : readBytes stream s <+: bytesOf stream (s.recorded c)
  fins : ∀ chunk ∈ chunksOf stream s, chunk.fin = true → (s.recorded c).any (isFin stream) = true

/-- Of a stream that was reset, a poll returns bytes, or the code. -/
def Reports (c : ℕ) (stream : StreamId) {β : Type} (op : Op δ β) (s : State δ) : Prop :=
  match op with
  | .polled _ result => ∀ code, codeOf stream (s.absorbed c) = some code →
    (∃ chunk, result = .ready (.ok chunk) ∧ chunk.bytes ≠ []) ∨ result = .ready (.error (streamReset code))
  | _ => True

/-- What a reader knows of the slot, once it has looked at it. -/
def Reading.Knows (stream : StreamId) (events : List Observed) (slot : Incoming) : Reading → Prop
  | idle => True
  | nothing => codeOf stream events = none
  | found again seen => seen = slot ∧ Honest stream events again slot
  | taken seen => seen.reset = codeOf stream events ∧ (seen.bytes = [] → seen.reset = none) ∧
    (seen.finished = true → events.any (isFin stream) = true)

structure Read (c : ℕ) (stream : StreamId) (s : State δ) (k : Reading) : Prop where
  accounts : Accounts c stream s
  holds : Holds stream (s.absorbed c) (readBytes stream s ++ k.inHand) ((s.handles c).slotOf stream)
  knows : k.Knows stream (s.absorbed c) ((s.handles c).slotOf stream)
  fins : ∀ chunk ∈ chunksOf stream s, chunk.fin = true → (s.recorded c).any (isFin stream) = true

variable {k : Reading}

theorem Read.readsRight (h : Read c stream s k) : ReadsRight c stream s where
  bytes := by
    rw [h.accounts.bytes, ← h.holds.bytes]
    simp
  fins := h.fins

theorem Read.fin_recorded (h : Read c stream s k) (hfin : (s.absorbed c).any (isFin stream) = true) :
    (s.recorded c).any (isFin stream) = true := by
  apply h.accounts.fin
  rw [List.any_append, hfin]
  rfl

theorem Read.absorb (h : Read c stream s k) (hk : k.inHand = []) : Read c stream (s.absorb c) .idle where
  accounts := h.accounts.absorb
  holds := by
    have habsorbed : (s.absorb c).absorbed c = s.absorbed c ++ (s.shareds c).observed := Function.update_self ..
    have hhandle : (s.absorb c).handles c = (s.handles c).absorb (s.shareds c).observed := Function.update_self ..
    rw [habsorbed, hhandle, Handle.slotOf_absorb]
    have hholds := h.holds
    rw [hk] at hholds
    exact hholds.seeAll _
  knows := True.intro
  fins := h.fins

theorem read_applyOp {β : Type} (op : Op δ β) (h : Read c stream s k) (hgood : EndsSeen c stream op s)
    (hallowed : k.Allows c stream op) : Read c stream (s.applyOp op).2 (k.next op (s.applyOp op).1) := by
  cases op with
  | await waker =>
    obtain rfl : k = .idle := hallowed
    exact ⟨h.accounts.of_eq rfl rfl rfl rfl, h.holds, True.intro, h.fins⟩
  | isClosed d => exact h
  | failure d => exact h
  | register waiters waker => exact ⟨h.accounts.of_eq rfl rfl rfl rfl, h.holds, h.knows, h.fins⟩
  | push d command =>
    refine ⟨h.accounts.of_eq rfl rfl rfl ?_, h.holds, h.knows, h.fins⟩
    by_cases hd : c = d
    · subst hd
      simp [State.applyOp, State.modifyShared, ConnectionShared.push]
    · simp [State.applyOp, State.modifyShared, hd]
  | absorb d =>
    obtain ⟨rfl, rfl | rfl⟩ := hallowed
    · exact h.absorb rfl
    · exact h.absorb rfl
  | readable again d other =>
    obtain ⟨rfl, rfl, rfl⟩ := hallowed
    have hanswer : (s.applyOp (.readable again d other : Op δ _)).1 = (s.handles d).readable other := rfl
    rw [hanswer]
    cases hreadable : (s.handles d).readable other with
    | some slot =>
      obtain ⟨rfl, -⟩ := Handle.readable_eq_some.mp hreadable
      exact ⟨h.accounts, h.holds, ⟨rfl, hgood⟩, h.fins⟩
    | none =>
      obtain ⟨-, hunfinished⟩ := Handle.readable_eq_none.mp hreadable
      refine ⟨h.accounts, h.holds, ?_, h.fins⟩
      show codeOf other (s.absorbed d) = none
      by_contra hcode
      obtain ⟨code, hcode⟩ := Option.ne_none_iff_exists'.mp hcode
      rw [h.holds.finished, ended_of_code hcode] at hunfinished
      cases hunfinished
  | takeBytes d other =>
    obtain ⟨rfl, rfl, again, slot, rfl, htaken⟩ := hallowed
    obtain ⟨rfl, hends, hreset⟩ := h.knows
    have hslot : ((s.takeBytes d other).handles d).slotOf other = { (s.handles d).slotOf other with bytes := [] } := by
      have hmodified := Handle.slotOf_modify (s.handles d) other other ({ · with bytes := [] })
      rw [if_pos rfl] at hmodified
      rw [← hmodified]
      exact congrArg (Handle.slotOf · other) (Function.update_self ..)
    -- With nothing left to read there is no code, at either check.
    have hnone : ((s.handles d).slotOf other).bytes = [] → ((s.handles d).slotOf other).reset = none := by
      cases again with
      | true => exact hreset rfl
      | false => exact htaken rfl
    refine ⟨h.accounts.of_eq rfl rfl rfl rfl, ?_, ⟨h.holds.reset, hnone, fun hfinished => ?_⟩, h.fins⟩
    · have hbytes : readBytes other s ++ [] ++ ((s.handles d).slotOf other).bytes = _ := h.holds.bytes
      rw [List.append_nil] at hbytes
      show Holds other (s.absorbed d) (readBytes other s ++ ((s.handles d).slotOf other).bytes)
        (((s.takeBytes d other).handles d).slotOf other)
      rw [hslot]
      exact ⟨by simpa using hbytes, h.holds.finished, h.holds.reset⟩
    · rcases hends hfinished with hfin | ⟨-, hempty, hsome⟩
      · exact hfin
      · rw [hnone hempty] at hsome
        cases hsome
  | polled other result =>
    obtain ⟨rfl, htold⟩ := hallowed
    rcases result with _ | error | chunk
    · obtain rfl : k = .nothing := htold
      exact ⟨h.accounts, h.holds, True.intro, h.fins⟩
    · refine ⟨h.accounts, ?_, True.intro, h.fins⟩
      have hhand : k.inHand = [] := by
        rcases htold with rfl | ⟨slot, code, rfl, -⟩
        · rfl
        · rfl
      have hholds := h.holds
      rw [hhand] at hholds
      exact hholds
    · obtain ⟨slot, rfl, rfl⟩ := htold
      obtain ⟨-, -, hfin⟩ := h.knows
      have hchunks : chunksOf other (s.applyOp (.polled other (.ready (.ok ⟨slot.bytes, slot.finished⟩)))).2 =
          chunksOf other s ++ [⟨slot.bytes, slot.finished⟩] := by
        simp [chunksOf, State.applyOp]
      refine ⟨h.accounts.of_eq rfl rfl rfl rfl, ?_, True.intro, fun chunk hmem hended => ?_⟩
      · have hread : readBytes other (s.applyOp (.polled other (.ready (.ok ⟨slot.bytes, slot.finished⟩)))).2 =
            readBytes other s ++ slot.bytes := by
          simp [readBytes, hchunks]
        have hholds : Holds other (s.absorbed c) (readBytes other s ++ slot.bytes ++ []) ((s.handles c).slotOf other) := by
          rw [List.append_nil]
          exact h.holds
        rw [← hread] at hholds
        exact hholds
      · rw [hchunks, List.mem_append, List.mem_singleton] at hmem
        rcases hmem with hmem | rfl
        · exact h.fins chunk hmem hended
        · exact h.fin_recorded (hfin hended)
  | _ => exact hallowed.elim

theorem read_act (h : Read c stream s k) {action : Action δ} (hfair : action ≠ .absorb c) : Read c stream (s.act action) k := by
  have hkept : (s.act action).handles c = s.handles c ∧ (s.act action).absorbed c = s.absorbed c ∧
      (s.act action).returned = s.returned ∧ s.recorded c <+: (s.act action).recorded c := by
    cases action
    case absorb d =>
      have hd : c ≠ d := by
        rintro rfl
        exact hfair rfl
      simp [State.act, State.absorb, State.modifyShared, State.modifyHandle, hd]
    case observe d event =>
      rw [State.act]
      split
      · refine ⟨rfl, rfl, rfl, ?_⟩
        by_cases hd : c = d
        · subst hd
          simp [State.record, State.onWakers]
        · simp [State.record, State.onWakers, hd]
      · exact ⟨rfl, rfl, rfl, List.prefix_rfl⟩
    all_goals
      rw [State.act]
      try split
    all_goals exact ⟨rfl, rfl, rfl, List.prefix_rfl⟩
  obtain ⟨hhandles, habsorbed, hreturned, hrecorded⟩ := hkept
  refine ⟨accounts_act h.accounts hfair, ?_, ?_, ?_⟩
  · rw [habsorbed, hhandles, readBytes, chunksOf, hreturned]
    exact h.holds
  · rw [habsorbed, hhandles]
    exact h.knows
  · rw [chunksOf, hreturned]
    intro chunk hmem hended
    have hfin := h.fins chunk hmem hended
    rw [List.any_eq_true] at hfin ⊢
    obtain ⟨event, hevent, hisFin⟩ := hfin
    exact ⟨event, hrecorded.subset hevent, hisFin⟩

theorem reports_of_read {β : Type} {op : Op δ β} (h : Read c stream s k) (hallowed : k.Allows c stream op) :
    Reports c stream op s := by
  cases op
  case polled other result =>
    obtain ⟨rfl, htold⟩ := hallowed
    intro code hcode
    rcases result with _ | error | chunk
    · obtain rfl : k = .nothing := htold
      cases h.knows.symm.trans hcode
    · rcases htold with rfl | ⟨slot, code', rfl, -, hreset, rfl⟩
      · cases h.knows.symm.trans hcode
      · obtain ⟨rfl, -⟩ := h.knows
        obtain rfl : code' = code := Option.some.inj (hreset.symm.trans (h.holds.reset.trans hcode))
        exact .inr rfl
    · obtain ⟨slot, rfl, rfl⟩ := htold
      obtain ⟨hreset, hnone, -⟩ := h.knows
      refine .inl ⟨_, rfl, fun hempty => ?_⟩
      cases (hnone hempty).symm.trans (hreset.trans hcode)
  all_goals exact True.intro

def aStream : StreamId := ⟨0, zero_le_maxVarint⟩

def reader : System (Op Unit) Error Unit (State Unit) (Action Unit) := system (reads 0 aStream [.read 0])

/-- The peer sends a byte and resets the stream; then there is a poll. -/
def cutShort : List (Choice (Action Unit)) :=
  .other (.observe 0 (.data aStream [1] false)) :: .other (.observe 0 (.reset aStream 7)) :: List.replicate 6 .own

/-- The peer sends a byte and finishes the stream. -/
def sentWhole : List (Choice (Action Unit)) :=
  .other (.observe 0 (.data aStream [1] false)) :: .other (.observe 0 (.data aStream [] true)) :: List.replicate 6 .own

end Ngnet.QuicStreamReads
