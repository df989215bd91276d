import Mathlib.Tactic.Common
import Mathlib.Tactic.SplitIfs
import Ngnet.Http3Passes

/-!
# What an HTTP/3 driver holds, and what it fails for

Between the operations that touch shared state the driver holds things in its local variables: the
command it popped, the slots and the bodies of the entries it removed, the lock of the queue. The
protocol `desk` follows its answers and says what it holds. A driver that follows it awaits, fails and
returns with nothing in its hands, and its guard empties the registry and sweeps the queue.

The same pass over the driver's functions shows what it fails for: in a `strict` run the answers that
report a failure of the connection or of one exchange are not met, and such a driver does not fail.
-/

namespace Ngnet.Http3Discipline
open QmuxVarints QmuxStreams Http3Heads Http3Handles Http3Conn Http3Driver Http3Passes InterleavedPrograms
open QmuxConnection (Poll)
open QmuxHttp3Join (QuicEvent WriteOutcome)

variable {β ν η α γ : Type}

/-! ## Failures -/

def backendFailed : BackendCall α → α → Bool
  | .pollEvent, .ready (.error ()) => true
  | .pollFlush, .ready (.error ()) => true
  | .pollOpenUni, .ready (.error ()) => true
  | .pollOpenBi, .ready (.error ()) => true
  | .instruct _, .error () => true
  | _, _ => false

section Failures
variable [Nghttp3 ν]

/-- The calls of nghttp3 that concern the connection as a whole, and those that fail only once it
has become unusable. -/
def connectionCallFailed (ν : Type) [Nghttp3 ν] : ConnCall → Except CoreError Unit → Bool
  | .bindControlStream _, .error _ | .bindQpackStreams _ _, .error _ => true
  | .blockStream _, .error _ | .shutdownStreamWrite _, .error _ => true
  | .submitRequest _ _ _, .error error => error.isFatal ν
  | _, _ => false

def readsOrWrites : NativeCall α → Bool
  | .readStream _ _ _ | .writevStream => true
  | .closeStream _ _ | .addAckOffset _ _ => false

def acknowledges : NativeCall α → Bool
  | .addAckOffset _ _ => true
  | .readStream _ _ _ | .writevStream | .closeStream _ _ => false

/-- The answer reports a failure of the backend or of the connection. -/
def connectionFailed : Op β ν α → α → Bool
  | .backend call, answer => backendFailed call answer
  | .leaveTransmit (.ready (.error ())) _, _ => true
  | .returnCredit, .error () => true
  | .conn call, answer => connectionCallFailed ν call answer
  | .enter call, .error _ => readsOrWrites call
  | .leave call _ _, .error _ => readsOrWrites call
  | _, _ => false

end Failures

section Content
variable [Http]

/-- The head or the trailers in an observation cannot be turned into a message. -/
def undecodable (role : Role) : Observation → Bool
  | .head _ .headers fields => role = .client && !(responseHead fields).isOk
  | .head _ .trailers fields => !(trailers fields).isOk
  | _ => false

/-- The trailers of a body that ended cannot be sent. -/
def unsendable : Ending → Bool
  | .trailers fields => !(trailerFields fields).isOk
  | .clean | .failed => false

def streamCallFailed : ConnCall → Except CoreError Unit → Bool
  | .submitTrailers _ _, .error _ | .submitResponse _ _ _, .error _ => true
  | .commit _ _, .error _ | .unblockStream _, .error _ => true
  | _, _ => false

/-- The answer reports something about one exchange that ends the driver: a head that cannot be
decoded, trailers that cannot be sent, or a call about its stream that nghttp3 refuses. -/
def exchangeFailed (role : Role) : Op β ν α → α → Bool
  | .drainObserved, observed => observed.any (undecodable role)
  | .takeEnding _, some (_, ending) => unsendable ending
  | .conn call, answer => streamCallFailed call answer
  | .enter call, .error _ => acknowledges call
  | .leave call _ _, .error _ => acknowledges call
  | _, _ => false

/-- An error was kept for this pass. -/
def errorKept : Op β ν α → α → Bool
  | .takeError, some _ => true
  | _, _ => false

def blamed [Nghttp3 ν] (role : Role) (op : Op β ν α) (answer : α) : Bool :=
  connectionFailed op answer || exchangeFailed role op answer || errorKept op answer

end Content

/-! ## What the driver holds -/

inductive HandState | empty | popped | admitted
  deriving DecidableEq, Repr

/-- `slots` and `bodies` count those of removed entries that are still to be settled, `queued` the
commands that are left while the queue is locked. -/
structure Desk where
  hand : HandState := .empty
  slots : ℕ := 0
  bodies : ℕ := 0
  queued : Option ℕ := none
  cleared : Bool := false
  swept : Bool := false
  deriving DecidableEq, Repr

namespace Desk

/-- Nothing is held. -/
def Tidy (k : Desk) : Prop := k.hand = .empty ∧ k.slots = 0 ∧ k.bodies = 0 ∧ k.queued = none

def next (k : Desk) : Op β ν α → α → Desk
  | .pop, some _ => { k with hand := .popped }
  | .admitRequest, settled => { k with hand := if settled then .empty else .admitted }
  | .refuse _, _ => { k with hand := .empty }
  | .enterHand _, _ => { k with hand := .empty, cleared := false }
  | .openExchange _ _, _ => { k with cleared := false }
  | .retireSlot _ _, true => { k with bodies := k.bodies + 1 }
  | .retireBody _, _ => { k with bodies := k.bodies - 1 }
  | .finishEntry _, some ⟨some _, _⟩ => { k with slots := k.slots + 1 }
  | .leavingSettled, true => { k with slots := k.slots - 1 }
  | .failLeaving _, _ => { k with slots := k.slots - 1 }
  | .takeAll, entries => { k with
      slots := k.slots + (entries.filterMap (·.slot)).length
      bodies := k.bodies + entries.length
      cleared := true }
  | .lockQueue, queued => { k with queued := some queued }
  | .abandonNext, _ => { k with queued := k.queued.map (· - 1) }
  | .unlockQueue, _ => { k with queued := none, swept := true }
  | _, _ => k

def allows (strict : Prop) (role : Role) (k : Desk) : Op β ν α → Prop
  | .await => k.Tidy
  | .keepError _ => ¬strict
  | .pop => k.hand = .empty ∧ k.queued = none ∧ role = .client
  | .admitRequest => k.hand = .popped
  | .refuse _ => k.hand = .admitted
  | .enterHand _ => k.hand = .admitted
  | .openExchange _ _ => role = .server
  | .retireBody _ => 0 < k.bodies
  | .leavingSettled | .failLeaving _ => 0 < k.slots
  | .lockQueue => k.queued = none
  | .abandonNext => ∃ n, k.queued = some (n + 1)
  | .unlockQueue => k.queued = some 0
  | _ => True

end Desk

section Protocol
variable [Nghttp3 ν] [Http] (strict : Prop) (role : Role)

/-- What the driver holds, and, in a `strict` run, that no answer reports a failure. -/
def desk : Protocol (Op β ν) Desk where
  next := Desk.next
  allows := Desk.allows strict role
  expects op answer := strict → blamed role op answer = false

/-- A function that holds nothing before and behind it, behind which `Q` holds of its result, and
which does not fail in a strict run. -/
def Keeps (Q : α → Prop) (p : DriverM β ν α) : Prop :=
  ∀ k : Desk, k.Tidy → Follows (desk strict role) (fun a k' => Q a ∧ k'.Tidy) (fun _ k' => ¬strict ∧ k'.Tidy) p k

/-- A function of which nothing more is said. -/
abbrev Neat (p : DriverM β ν α) : Prop := Keeps strict role (fun _ => True) p

/-- After this operation the driver holds what it held. -/
def quiet : Op β ν α → Bool
  | .keepError _ | .pop | .admitRequest | .refuse _ | .enterHand _ | .openExchange _ _ => false
  | .retireSlot _ _ | .retireBody _ | .finishEntry _ | .leavingSettled | .failLeaving _ | .takeAll => false
  | .lockQueue | .abandonNext | .unlockQueue => false
  | _ => true

omit [Nghttp3 ν] [Http] in
theorem allows_of_quiet {op : Op β ν α} (h : quiet op = true) {k : Desk} (hk : k.Tidy) :
    k.allows strict role op ∧ ∀ a, k.next op a = k := by
  cases op with
  | await => exact ⟨hk, fun _ => rfl⟩
  | _ => first
    | exact ⟨True.intro, fun _ => rfl⟩
    | cases h

end Protocol

section Rules
variable [Nghttp3 ν] [Http] {strict : Prop} {role : Role} {Q : α → Prop} {R : γ → Prop}

theorem keeps_pure {a : α} (h : Q a) : Keeps (β := β) (ν := ν) strict role Q (pure a) :=
  fun _ hk => ⟨h, hk⟩

theorem keeps_fail {error : Error} (h : ¬strict) : Keeps (β := β) (ν := ν) strict role Q (.fail error) :=
  fun _ hk => ⟨h, hk⟩

theorem keeps_outOfFuel : Keeps (β := β) (ν := ν) strict role Q .outOfFuel := fun _ _ => True.intro

variable {p : DriverM β ν α}

theorem keeps_bind {f : α → DriverM β ν γ} (hp : Keeps strict role Q p)
    (hf : ∀ a, Q a → Keeps strict role R (f a)) : Keeps strict role R (p >>= f) := by
  intro k hk
  rw [follows_bind]
  exact (hp k hk).mono (fun a k' h => hf a h.1 k' h.2) fun _ _ h => h

variable {op : Op β ν α}

theorem keeps_perform (hop : quiet op = true) :
    Keeps strict role (fun a => strict → blamed role op a = false) (perform op) := by
  intro k hk
  obtain ⟨hallows, hnext⟩ := allows_of_quiet strict role hop hk
  rw [follows_perform]
  refine ⟨hallows, fun a ha => ⟨ha, ?_⟩⟩
  show (k.next op a).Tidy
  rwa [hnext]

theorem keeps_ofExcept {result : Except Error α} (h : strict → result.isOk = true) :
    Keeps (β := β) (ν := ν) strict role (fun a => result = .ok a) (ofExcept result) := by
  intro k hk
  cases result with
  | ok a => exact ⟨rfl, hk⟩
  | error error => exact ⟨fun hstrict => by simpa [Except.isOk, Except.toBool] using h hstrict, hk⟩

theorem Keeps.mono {Q' : α → Prop} (h : Keeps strict role Q p) (hQ : ∀ a, Q a → Q' a) :
    Keeps strict role Q' p :=
  fun k hk => Follows.mono (h k hk) (fun a _ ha => ⟨hQ a ha.1, ha.2⟩) fun _ _ he => he

theorem Keeps.neat (h : Keeps strict role Q p) : Neat strict role p :=
  h.mono fun _ _ => True.intro

theorem keeps_act {f : α → DriverM β ν γ} (hop : quiet op = true)
    (hf : ∀ a, (strict → blamed role op a = false) → Keeps strict role R (f a)) :
    Keeps strict role R (perform op >>= f) :=
  keeps_bind (keeps_perform hop) hf

theorem neat_perform (hop : quiet op = true) : Neat strict role (perform op) :=
  Keeps.neat (keeps_perform hop)

end Rules

/-! ## The functions of a pass -/

section Functions
variable [Nghttp3 ν] [Http] {strict : Prop} {role : Role}

attribute [local simp] blamed connectionFailed exchangeFailed errorKept undecodable unsendable

theorem neat_transport (instruction : Instruction) :
    Neat strict role (transport instruction : DriverM β ν Unit) := by
  refine keeps_act rfl fun answer hanswer => ?_
  rcases answer with ⟨⟩ | ⟨⟩
  · exact keeps_fail fun hstrict => nomatch hanswer hstrict
  · exact keeps_pure True.intro

variable {call : ConnCall}

theorem neat_core
    (h : ∀ error, connectionCallFailed ν call (.error error) || streamCallFailed call (.error error)) :
    Neat strict role (core call : DriverM β ν Unit) := by
  refine keeps_act rfl fun answer hanswer => ?_
  rcases answer with error | ⟨⟩
  · refine keeps_fail fun hstrict => ?_
    have herror := h error
    simp_all
  · exact keeps_pure True.intro

theorem neat_ignoring (call : ConnCall) : Neat strict role (ignoring call : DriverM β ν Unit) :=
  keeps_act rfl fun _ _ => keeps_pure True.intro

/-- The errors of this call end the driver, where they are not kept. -/
def answersFor (call : NativeCall α) : Bool := readsOrWrites call || acknowledges call

/-- A strict run meets no such error. -/
def Answered (strict : Prop) (call : NativeCall α) (answer : Except CoreError α) : Prop :=
  strict → answersFor call = true → answer.isOk = true

theorem answered_of_leave {call : NativeCall α} {result : Except ℤ α} {raw : ν} {answer : Except CoreError α}
    (h : strict → blamed role (Op.leave (β := β) call result raw) answer = false) : Answered strict call answer := by
  intro hstrict hcall
  have := h hstrict
  cases answer with
  | ok a => rfl
  | error error => simp_all [answersFor]

theorem answered_of_enter {call : NativeCall α} {error : CoreError}
    (h : strict → blamed role (Op.enter (β := β) (ν := ν) call) (.error error) = false) :
    Answered strict call (.error error) := by
  intro hstrict hcall
  have := h hstrict
  simp_all [answersFor]

theorem keeps_interact (call : NativeCall α) (tree : Native ν α) :
    Keeps strict role (Answered strict call) (interact call tree : DriverM β ν (Except CoreError α)) := by
  induction tree with
  | returns result raw => exact Keeps.mono (keeps_perform rfl) fun _ => answered_of_leave
  | callback callback next ih => exact keeps_act rfl fun _ _ => ih
  | readData stream veccnt next ih => exact keeps_act rfl fun answer _ => ih answer

theorem keeps_native (call : NativeCall α) :
    Keeps strict role (Answered strict call) (native call : DriverM β ν (Except CoreError α)) := by
  refine keeps_act rfl fun answer hanswer => ?_
  rcases answer with error | tree
  · exact keeps_pure (answered_of_enter hanswer)
  · exact keeps_interact call tree

theorem neat_flushBeforePending : Neat strict role (flushBeforePending : DriverM β ν Unit) := by
  refine keeps_act rfl fun answer hanswer => ?_
  rcases answer with _ | ⟨⟨⟩ | ⟨⟩⟩
  · exact neat_perform rfl
  · exact keeps_fail fun hstrict => nomatch hanswer hstrict
  · exact neat_perform rfl

theorem keeps_pollUntilReady {Q : α → Prop} {poll : DriverM β ν (Poll α)}
    (hpoll : Keeps strict role (fun answer => ∀ a, answer = .ready a → Q a) poll) (fuel : ℕ) :
    Keeps strict role Q (pollUntilReady poll fuel) := by
  induction fuel with
  | zero => exact keeps_outOfFuel
  | succ fuel ih =>
    refine keeps_bind hpoll fun answer hanswer => ?_
    cases answer with
    | ready a => exact keeps_pure (hanswer a rfl)
    | pending => exact keeps_bind neat_flushBeforePending fun _ _ => ih

theorem neat_openUnis (n : ℕ) : Neat strict role (openUnis n : DriverM β ν (Poll Unit)) := by
  induction n with
  | zero => exact keeps_pure True.intro
  | succ n ih =>
    refine keeps_act rfl fun answer hanswer => ?_
    rcases answer with _ | ⟨⟨⟩ | stream⟩
    · exact keeps_pure True.intro
    · exact keeps_fail fun hstrict => nomatch hanswer hstrict
    · exact keeps_act rfl fun _ _ => ih

theorem neat_pollBind : Neat strict role (pollBind : DriverM β ν (Poll Unit)) := by
  refine keeps_act rfl fun bound _ => ?_
  cases bound with
  | true => exact keeps_pure True.intro
  | false =>
    refine keeps_act rfl fun opened _ => keeps_bind (neat_openUnis _) fun answer _ => ?_
    cases answer with
    | pending => exact keeps_pure True.intro
    | ready =>
      refine keeps_act rfl fun streams _ => ?_
      rcases streams with _ | ⟨control, _ | ⟨encoder, _ | ⟨decoder, rest⟩⟩⟩
      · exact keeps_outOfFuel
      · exact keeps_outOfFuel
      · exact keeps_outOfFuel
      · refine keeps_bind (neat_core fun _ => rfl) fun _ _ => keeps_bind (neat_core fun _ => rfl) fun _ _ => ?_
        exact keeps_act rfl fun _ _ => keeps_pure True.intro

theorem neat_pollEvents (n : ℕ) (taken : List QuicEvent) :
    Neat strict role (pollEvents n taken : DriverM β ν (List QuicEvent)) := by
  induction n generalizing taken with
  | zero => exact keeps_pure True.intro
  | succ n ih =>
    refine keeps_act rfl fun answer hanswer => ?_
    rcases answer with _ | ⟨⟨⟩ | event⟩
    · exact keeps_pure True.intro
    · exact keeps_fail fun hstrict => nomatch hanswer hstrict
    · dsimp only
      split
      · exact keeps_pure True.intro
      · exact ih _

theorem neat_takeEvents (config : Http3Passes.Config) :
    Neat strict role (takeEvents config : DriverM β ν (List QuicEvent)) := by
  refine keeps_act rfl fun answer hanswer => ?_
  cases answer with
  | some error => exact keeps_fail fun hstrict => nomatch hanswer hstrict
  | none => exact keeps_act rfl fun _ _ => neat_pollEvents _ _

variable (stream : StreamId)

theorem neat_extend (bytes : ℕ) :
    Neat strict role (extend stream bytes : DriverM β ν Unit) := by
  rw [extend]
  split
  · exact keeps_pure True.intro
  · exact keeps_bind (neat_transport _) fun _ _ => neat_transport _

theorem neat_read (bytes : Bytes) (fin : Bool) :
    Neat strict role (read stream bytes fin : DriverM β ν Unit) := by
  refine keeps_bind (keeps_native _) fun answer hanswer => ?_
  cases answer with
  | error error => exact keeps_fail fun hstrict => nomatch hanswer hstrict rfl
  | ok credit => exact neat_extend stream credit

theorem neat_applyRelease (bytes : ℕ) (delivered : Bool) :
    Neat strict role (applyRelease stream bytes delivered : DriverM β ν Unit) := by
  rw [applyRelease]
  split
  · exact keeps_pure True.intro
  refine keeps_act rfl fun closed _ => ?_
  split
  · exact keeps_pure True.intro
  split
  · exact keeps_pure True.intro
  refine keeps_bind (keeps_native _) fun answer hanswer => ?_
  cases answer with
  | error error => exact keeps_fail fun hstrict => nomatch hanswer hstrict rfl
  | ok => exact keeps_pure True.intro

theorem neat_retire (slotError bodyError : Error) :
    Neat strict role (retire stream slotError bodyError : DriverM β ν Bool) := by
  intro k hk
  refine ⟨True.intro, fun found _ => ?_⟩
  cases found with
  | false => exact ⟨True.intro, hk⟩
  | true => exact ⟨Nat.succ_pos _, fun _ _ => ⟨True.intro, hk⟩⟩

theorem neat_failStream (code : ℕ) :
    Neat strict role (failStream stream code : DriverM β ν Bool) :=
  keeps_bind (neat_retire _ _ _) fun _ _ => keeps_act rfl fun _ _ => keeps_pure True.intro

variable (streams : List StreamId)

theorem neat_refuseEach :
    Neat strict role (refuseEach streams : DriverM β ν Unit) := by
  induction streams with
  | nil => exact keeps_pure True.intro
  | cons stream rest ih => exact keeps_bind (neat_retire _ _ _) fun _ _ => keeps_act rfl fun _ _ => ih

theorem neat_refuseFrom (cutoff : StreamId) : Neat strict role (refuseFrom cutoff : DriverM β ν Unit) :=
  keeps_act rfl fun _ _ => neat_refuseEach _

theorem neat_settleFinished {p : DriverM β ν Unit} (hp : Neat strict role p) :
    Neat strict role (do
      match ← perform (.finishEntry stream) with
      | some ⟨some _, _⟩ => if !(← perform .leavingSettled) then perform (.failLeaving endedEarly)
      | _ => pure ()
      p) := by
  intro k hk
  refine ⟨True.intro, fun entry _ => ?_⟩
  rcases entry with _ | ⟨_ | slot, incoming⟩
  · exact hp k hk
  · exact hp k hk
  · refine ⟨Nat.succ_pos _, fun settled _ => ?_⟩
    cases settled with
    | true => exact hp k hk
    | false => exact ⟨Nat.succ_pos _, fun _ _ => hp k hk⟩

theorem neat_closeStream (closed : StreamClosed) :
    Neat strict role (closeStream stream closed : DriverM β ν Unit) := by
  refine keeps_act rfl fun new _ => ?_
  cases new with
  | false => exact keeps_pure True.intro
  | true =>
    refine keeps_act rfl fun checkpoint _ => keeps_bind (keeps_native _) fun _ _ => keeps_act rfl fun _ _ => ?_
    exact neat_settleFinished stream (neat_perform rfl)

theorem neat_applyControl (events : List QuicEvent) (data : List (StreamId × Bytes × Bool))
    (unheard : List (StreamId × ℕ)) : Neat strict role
      (applyControl role events data unheard : DriverM β ν (List (StreamId × Bytes × Bool) × List (StreamId × ℕ))) := by
  induction events generalizing data unheard with
  | nil => exact keeps_pure True.intro
  | cons event rest ih =>
    cases event with
    | data stream bytes fin => exact ih _ _
    | accepted stream => exact ih _ _
    | released stream bytes delivered => exact keeps_bind (neat_applyRelease _ _ _) fun _ _ => ih _ _
    | stopSending stream code => exact keeps_bind (neat_ignoring _) fun _ _ => ih _ _
    | reset stream code =>
      exact keeps_bind (neat_ignoring _) fun _ _ => keeps_bind (neat_failStream _ _) fun _ _ => ih _ _
    | streamClosed stream rxCode txCode => exact keeps_bind (neat_closeStream _ _) fun _ _ => ih _ _
    | closed code => exact keeps_act rfl fun _ _ => ih _ _

theorem neat_readAll (data : List (StreamId × Bytes × Bool)) :
    Neat strict role (readAll data : DriverM β ν Unit) := by
  induction data with
  | nil => exact keeps_pure True.intro
  | cons piece rest ih => exact keeps_bind (neat_read _ _ _) fun _ _ => ih

theorem neat_applyEvents (events : List QuicEvent) :
    Neat strict role (applyEvents role events : DriverM β ν (List (StreamId × ℕ))) :=
  keeps_bind (neat_applyControl _ _ _) fun _ _ => keeps_bind (neat_readAll _) fun _ _ => keeps_pure True.intro

/-! ### Bodies and requests -/

omit [Http] in
theorem isOk_views {fields : OwnedFields} (h : ∃ headers, views fields = .ok headers) :
    (views fields).isOk = true := by
  obtain ⟨headers, hviews⟩ := h
  rw [hviews]
  rfl

theorem neat_finishBody {stream : StreamId} {ending : Ending} (h : strict → unsendable ending = false) :
    Neat strict role (finishBody role stream ending : DriverM β ν Unit) := by
  cases ending with
  | clean => exact keeps_pure True.intro
  | trailers fields =>
    have hsendable : strict → (trailerFields fields).isOk = true := by
      intro hstrict
      simpa using h hstrict
    refine keeps_bind (keeps_ofExcept hsendable) fun encoded hencoded => ?_
    refine keeps_bind (keeps_ofExcept fun _ => isOk_views (views_trailerFields hencoded)) fun headers _ => ?_
    exact neat_core fun _ => rfl
  | failed =>
    cases role with
    | client => exact keeps_bind (neat_retire _ _ _) fun _ _ => neat_perform rfl
    | server => exact neat_perform rfl

theorem neat_finishEach (n index : ℕ) (done : List ℕ) :
    Neat strict role (finishEach role n index done : DriverM β ν (List ℕ)) := by
  induction n generalizing index done with
  | zero => exact keeps_pure True.intro
  | succ n ih =>
    refine keeps_act rfl fun answer hanswer => ?_
    rcases answer with _ | ⟨stream, ending⟩
    · exact ih _ _
    · have hsendable : strict → unsendable ending = false := by
        intro hstrict
        simpa using hanswer hstrict
      exact keeps_bind (neat_finishBody hsendable) fun _ _ => ih _ _

theorem neat_finishBodies : Neat strict role (finishBodies role : DriverM β ν Unit) :=
  keeps_act rfl fun _ _ => keeps_bind (neat_finishEach _ _ _) fun _ _ => neat_perform rfl

theorem follows_submitCommand (request : Request) (stream : StreamId) {k : Desk} (hk : k.Tidy) :
    Follows (desk strict role) (fun _ k' => True ∧ k'.Tidy) (fun _ k' => ¬strict ∧ k'.Tidy)
      (submitCommand request stream : DriverM β ν Unit) { k with hand := .admitted } := by
  obtain ⟨-, hslots, hbodies, hqueued⟩ := hk
  rw [submitCommand]
  split
  · exact ⟨rfl, fun _ _ => ⟨True.intro, rfl, hslots, hbodies, hqueued⟩⟩
  · rename_i fields hfields
    obtain ⟨headers, hviews⟩ := views_requestFields hfields
    rw [hviews]
    refine ⟨True.intro, fun ending _ => ⟨True.intro, fun answer hanswer => ?_⟩⟩
    rcases answer with error | ⟨⟩
    · show Follows _ _ _ (if error.isFatal ν then _ else _) _
      split
      · rename_i hfatal
        refine ⟨rfl, fun _ _ => ⟨fun hstrict => ?_, rfl, hslots, hbodies, hqueued⟩⟩
        have := hanswer hstrict
        simp [connectionCallFailed, hfatal] at this
      · exact ⟨rfl, fun _ _ => ⟨True.intro, rfl, hslots, hbodies, hqueued⟩⟩
    · exact ⟨rfl, fun _ _ => ⟨True.intro, rfl, hslots, hbodies, hqueued⟩⟩

theorem neat_submitQueued (hrole : role = .client) (fuel : ℕ) :
    Neat strict role (submitQueued fuel : DriverM β ν Unit) := by
  induction fuel with
  | zero => exact keeps_outOfFuel
  | succ fuel ih =>
    intro k hk
    refine ⟨⟨hk.1, hk.2.2.2, hrole⟩, fun popped _ => ?_⟩
    rcases popped with _ | ⟨request, stream⟩
    · exact ⟨True.intro, hk⟩
    · refine ⟨rfl, fun settled _ => ?_⟩
      cases settled with
      | true => exact ih _ ⟨rfl, hk.2⟩
      | false =>
        show Follows _ _ _ (submitCommand request stream >>= fun _ => submitQueued fuel) _
        rw [follows_bind]
        exact (follows_submitCommand request stream hk).mono (fun _ k' h => ih k' h.2) fun _ _ h => h

theorem neat_answer (response : Response) :
    Neat strict role (answer stream response : DriverM β ν Unit) := by
  refine keeps_act rfl fun known _ => ?_
  cases known with
  | false => exact neat_perform rfl
  | true =>
    cases hfields : responseFields response.parts with
    | error error =>
      dsimp only
      exact keeps_act rfl fun _ _ => neat_perform rfl
    | ok fields =>
      dsimp only
      refine keeps_act rfl fun ending _ => ?_
      refine keeps_bind (keeps_ofExcept fun _ => isOk_views (views_responseFields hfields)) fun headers _ => ?_
      refine keeps_bind (neat_core fun _ => rfl) fun _ _ => ?_
      split
      · exact keeps_pure True.intro
      · exact neat_perform rfl

theorem neat_pollHandlers :
    Neat strict role (pollHandlers streams : DriverM β ν Unit) := by
  induction streams with
  | nil => exact keeps_pure True.intro
  | cons stream rest ih =>
    refine keeps_act rfl fun response _ => ?_
    cases response with
    | none => exact ih
    | some response => exact keeps_bind (neat_answer _ _) fun _ _ => ih

theorem neat_advance (fuel : ℕ) : Neat strict role (advance role fuel : DriverM β ν Unit) := by
  refine keeps_bind neat_finishBodies fun _ _ => ?_
  cases role with
  | client => exact neat_submitQueued rfl fuel
  | server => exact keeps_act rfl fun _ _ => neat_pollHandlers _

/-! ### Observations -/

variable {config : Http3Passes.Config}

theorem neat_head {stream : StreamId} {fields : List Field}
    (h : strict → undecodable role (.head stream .headers fields) = false) :
    Neat strict role (head role config stream fields : DriverM β ν Unit) := by
  cases role with
  | client =>
    have hdecodable : strict → (responseHead fields).isOk = true := by
      intro hstrict
      simpa using h hstrict
    refine keeps_bind (keeps_ofExcept hdecodable) fun head _ => ?_
    split
    · exact keeps_pure True.intro
    · exact neat_perform rfl
  | server =>
    refine keeps_act rfl fun count _ => ?_
    split
    · exact keeps_bind (neat_ignoring _) fun _ _ => neat_perform rfl
    split
    · exact keeps_bind (neat_ignoring _) fun _ _ => neat_perform rfl
    · exact fun k hk => ⟨rfl, fun _ _ => ⟨True.intro, hk⟩⟩

theorem neat_dispatchOne {observation : Observation}
    (h : strict → undecodable role observation = false) :
    Neat strict role (dispatchOne role config observation : DriverM β ν Unit) := by
  cases observation with
  | head stream fieldSection fields =>
    cases fieldSection with
    | headers => exact keeps_act rfl fun _ _ => neat_head h
    | trailers =>
      have hdecodable : strict → (trailers fields).isOk = true := by
        intro hstrict
        simpa using h hstrict
      exact keeps_act rfl fun _ _ => keeps_bind (keeps_ofExcept hdecodable) fun _ _ => neat_perform rfl
  | data stream bytes => exact neat_perform rfl
  | ended stream => exact keeps_act rfl fun _ _ => neat_perform rfl
  | closed stream closed => exact keeps_act rfl fun _ _ => neat_closeStream _ _
  | shutdown shutdown =>
    refine keeps_act rfl fun _ _ => keeps_act rfl fun _ _ => ?_
    cases shutdown with
    | noStreamsFrom cutoff => exact neat_refuseFrom cutoff
    | notice => exact keeps_pure True.intro
    | noPushesFrom id => exact keeps_pure True.intro
  | settings settings => exact keeps_act rfl fun _ _ => neat_perform rfl

theorem neat_dispatchEach {observed : List Observation}
    (h : strict → ∀ observation ∈ observed, undecodable role observation = false) :
    Neat strict role (dispatchEach role config observed : DriverM β ν Unit) := by
  induction observed with
  | nil => exact keeps_pure True.intro
  | cons observation rest ih =>
    refine keeps_bind (neat_dispatchOne fun hstrict => h hstrict observation (by simp)) fun _ _ => ?_
    exact ih fun hstrict other hother => h hstrict other (by simp [hother])

theorem neat_dispatch (config : Http3Passes.Config) :
    Neat strict role (dispatch role config : DriverM β ν Unit) := by
  refine keeps_act rfl fun observed hobserved => neat_dispatchEach fun hstrict => ?_
  simpa using hobserved hstrict

/-! ### Transmitting -/

/-- In a strict run the call does not fail. -/
abbrev Succeeds (strict : Prop) (answer : Except CoreError α) : Prop := strict → answer.isOk = true

theorem keeps_conn
    (h : ∀ error, connectionCallFailed ν call (.error error) || streamCallFailed call (.error error)) :
    Keeps strict role (Succeeds strict) (perform (.conn call) : DriverM β ν (Except CoreError Unit)) := by
  refine Keeps.mono (keeps_perform rfl) fun answer hanswer hstrict => ?_
  rcases answer with error | ⟨⟩
  · have herror := h error
    have := hanswer hstrict
    simp_all
  · rfl

theorem neat_pushBlocked : Neat strict role (pushBlocked stream : DriverM β ν Unit) :=
  neat_perform rfl

theorem keeps_dispose (offer : Offer) (outcome : WriteOutcome) :
    Keeps strict role (fun answer => Succeeds strict answer.1)
      (dispose offer outcome : DriverM β ν (Except CoreError Unit × Bool × Bool)) := by
  cases outcome with
  | blocked => exact keeps_bind (neat_pushBlocked _) fun _ _ => keeps_pure fun _ => rfl
  | accepted taken =>
    rw [dispose]
    split
    · exact keeps_bind (neat_pushBlocked _) fun _ _ => keeps_pure fun _ => rfl
    refine keeps_bind (keeps_conn fun _ => rfl) fun result hresult => ?_
    split
    · exact keeps_bind (neat_pushBlocked _) fun _ _ => keeps_pure hresult
    · exact keeps_pure hresult
  | gone => exact keeps_pure fun _ => rfl

/-- The failure that the source stashes is blamed. -/
def NoFailure (strict : Prop) (offers : Offers) : Prop := strict → offers.failure = none

omit [Http] in
theorem not_strict_of_error {error : CoreError} (h : Succeeds strict (.error error : Except CoreError α)) : ¬strict :=
  fun hstrict => nomatch h hstrict

theorem keeps_conn_if {condition : Bool} {Q : α → Prop}
    {next : Except CoreError Unit → DriverM β ν α}
    (h : ∀ error, connectionCallFailed ν call (.error error) || streamCallFailed call (.error error))
    (hnext : ∀ answer, Succeeds strict answer → Keeps strict role Q (next answer)) : Keeps strict role Q
      (if condition then perform (.conn call) >>= next else (pure (.ok ()) : DriverM β ν _) >>= next) := by
  split
  · exact keeps_bind (keeps_conn h) hnext
  · exact hnext _ fun _ => rfl

variable {offers : Offers}

theorem keeps_applyOffer (offer : Offer) (outcome : WriteOutcome) (h : NoFailure strict offers) :
    Keeps strict role (fun answer => NoFailure strict answer.2)
      (applyOffer offers offer outcome : DriverM β ν (Bool × Offers)) := by
  refine keeps_bind (keeps_dispose _ _) fun answer hdispose => ?_
  obtain ⟨error | ⟨⟩, block, gone⟩ := answer
  · exact keeps_pure fun hstrict => (not_strict_of_error hdispose hstrict).elim
  refine keeps_conn_if (fun _ => rfl) fun answer hblock => ?_
  rcases answer with error | ⟨⟩
  · exact keeps_pure fun hstrict => (not_strict_of_error hblock hstrict).elim
  refine keeps_conn_if (fun _ => rfl) fun answer hgone => ?_
  rcases answer with error | ⟨⟩
  · exact keeps_pure fun hstrict => (not_strict_of_error hgone hstrict).elim
  · exact keeps_pure h

theorem keeps_unblockAll :
    Keeps strict role (Succeeds strict) (unblockAll streams : DriverM β ν (Except CoreError Unit)) := by
  induction streams with
  | nil => exact keeps_pure fun _ => rfl
  | cons stream rest ih =>
    refine keeps_bind (keeps_conn fun _ => rfl) fun answer hanswer => ?_
    rcases answer with error | ⟨⟩
    · exact keeps_pure hanswer
    · exact ih

theorem keeps_writeNext (write : Offer → WriteOutcome) (n : ℕ) (h : NoFailure strict offers) :
    Keeps strict role (fun answer => NoFailure strict answer.2.2)
      (writeNext write n offers : DriverM β ν (Option Offer × Bool × Offers)) := by
  induction n generalizing offers with
  | zero => exact keeps_pure h
  | succ n ih =>
    rw [writeNext]
    split
    · exact keeps_pure h
    refine keeps_bind (keeps_native _) fun answer hanswer => ?_
    rcases answer with error | _ | offer
    · exact keeps_pure fun hstrict => nomatch hanswer hstrict rfl
    · refine keeps_act rfl fun none_blocked _ => ?_
      split
      · exact keeps_pure h
      refine keeps_act rfl fun blocked _ => keeps_bind (keeps_unblockAll _) fun answer hanswer => ?_
      rcases answer with error | ⟨⟩
      · exact keeps_pure fun hstrict => (not_strict_of_error hanswer hstrict).elim
      · exact ih h
    · exact keeps_bind (keeps_applyOffer _ _ h) fun _ hoffers => keeps_pure hoffers

theorem keeps_transmitWith (tree : Transmit β) (h : NoFailure strict offers) :
    Keeps strict role (fun answer => (strict → answer.1 ≠ .ready (.error ())) ∧ NoFailure strict answer.2)
      (transmitWith tree offers : DriverM β ν (Poll (Except Unit Unit) × Offers)) := by
  induction tree generalizing offers with
  | returns poll backend =>
    refine keeps_act rfl fun _ hleave => keeps_pure ⟨?_, h⟩
    rintro hstrict rfl
    exact nomatch hleave hstrict
  | pull write next ih =>
    refine keeps_bind (keeps_writeNext write 2 h) fun answer hoffers => ?_
    obtain ⟨offer, more, offers⟩ := answer
    exact ih offer more hoffers

theorem neat_transmit (fuel : ℕ) (h : NoFailure strict offers) :
    Neat strict role (transmit fuel offers : DriverM β ν Unit) := by
  induction fuel generalizing offers with
  | zero => exact keeps_outOfFuel
  | succ fuel ih =>
    refine keeps_act rfl fun tree _ => keeps_bind (keeps_transmitWith tree h) fun answer hanswer => ?_
    obtain ⟨_ | ⟨⟨⟩ | ⟨⟩⟩, failure, retried⟩ := answer
    · exact keeps_bind neat_flushBeforePending fun _ _ => ih hanswer.2
    · exact keeps_fail fun hstrict => hanswer.1 hstrict rfl
    · cases failure with
      | some error => exact keeps_fail fun hstrict => nomatch hanswer.2 hstrict
      | none => exact keeps_pure True.intro

/-! ### The rest of a pass -/

theorem neat_returnCredit (credit : List (StreamId × ℕ)) :
    Neat strict role (Http3Passes.returnCredit credit : DriverM β ν Unit) := by
  induction credit with
  | nil => exact keeps_pure True.intro
  | cons entry rest ih =>
    rw [Http3Passes.returnCredit]
    dsimp only
    split
    case' isFalse => refine keeps_bind (neat_transport _) fun _ _ => ?_
    all_goals
      refine keeps_act rfl fun answer hanswer => ?_
      rcases answer with ⟨⟩ | ⟨⟩
      · exact keeps_fail fun hstrict => by cases hanswer hstrict
      · exact ih

theorem neat_extendEach (credit : List (StreamId × ℕ)) :
    Neat strict role (extendEach credit : DriverM β ν Unit) := by
  induction credit with
  | nil => exact keeps_pure True.intro
  | cons entry rest ih => exact keeps_bind (neat_extend _ _) fun _ _ => ih

theorem neat_takeActionsEach (actions : List TransportAction) :
    Neat strict role (takeActionsEach actions : DriverM β ν Unit) := by
  induction actions with
  | nil => exact keeps_pure True.intro
  | cons action rest ih =>
    cases action with
    | reset stream code => exact keeps_bind (neat_transport _) fun _ _ => ih
    | stopSending stream code => exact keeps_bind (neat_transport _) fun _ _ => ih

theorem neat_resetEach (resets : List (StreamId × ℕ)) :
    Neat strict role (resetEach resets : DriverM β ν Unit) := by
  induction resets with
  | nil => exact keeps_pure True.intro
  | cons reset rest ih =>
    refine keeps_bind (neat_ignoring _) fun _ _ => keeps_bind (neat_ignoring _) fun _ _ => ?_
    exact keeps_bind (neat_transport _) fun _ _ => keeps_bind (neat_transport _) fun _ _ => ih

theorem neat_resumeEach (ready : List StreamId) : Neat strict role (resumeEach ready : DriverM β ν Unit) := by
  induction ready with
  | nil => exact keeps_pure True.intro
  | cons stream rest ih => exact keeps_bind (neat_ignoring _) fun _ _ => ih

theorem neat_applyWork : Neat strict role (applyWork : DriverM β ν Unit) := by
  refine keeps_act rfl fun _ _ => keeps_act rfl fun _ _ => keeps_bind (neat_extendEach _) fun _ _ => ?_
  refine keeps_act rfl fun _ _ => keeps_bind (neat_returnCredit _) fun _ _ => ?_
  refine keeps_act rfl fun _ _ => keeps_bind (neat_takeActionsEach _) fun _ _ => ?_
  refine keeps_act rfl fun _ _ => keeps_bind (neat_resetEach _) fun _ _ => ?_
  refine keeps_act rfl fun _ _ => keeps_bind (neat_resumeEach _) fun _ _ => keeps_act rfl fun shutdown _ => ?_
  cases shutdown with
  | true => exact neat_ignoring _
  | false => exact keeps_pure True.intro

theorem neat_needsStream : Neat strict role (needsStream role : DriverM β ν Bool) := by
  cases role with
  | client =>
    refine keeps_act rfl fun spare _ => ?_
    split
    · exact keeps_act rfl fun _ _ => keeps_pure True.intro
    · exact keeps_pure True.intro
  | server => exact keeps_pure True.intro

theorem keeps_pollOpenBi : Keeps strict role (fun answer => ∀ result, answer = .ready result → strict → result.isOk)
    (perform (.backend .pollOpenBi) : DriverM β ν (Poll (Except Unit StreamId))) := by
  refine Keeps.mono (keeps_perform rfl) fun answer hanswer => ?_
  rintro (⟨⟩ | stream) rfl hstrict
  · exact nomatch hanswer hstrict
  · rfl

theorem neat_openStreams (fuel turns : ℕ) :
    Neat strict role (openStreams role fuel turns : DriverM β ν Unit) := by
  induction turns with
  | zero => exact keeps_outOfFuel
  | succ turns ih =>
    refine keeps_bind neat_needsStream fun needs _ => ?_
    split
    · refine keeps_bind (keeps_pollUntilReady keeps_pollOpenBi fuel) fun result hresult => ?_
      rcases result with ⟨⟩ | stream
      · exact keeps_fail fun hstrict => nomatch hresult hstrict
      · exact keeps_act rfl fun _ _ => ih
    · exact keeps_pure True.intro

theorem neat_busy : Neat strict role (busy role : DriverM β ν Bool) := by
  cases role with
  | client =>
    refine keeps_act rfl fun empty _ => ?_
    split
    · exact neat_perform rfl
    · exact keeps_pure True.intro
  | server =>
    refine keeps_act rfl fun woken _ => ?_
    split
    · exact keeps_pure True.intro
    · exact neat_perform rfl

theorem neat_roleDone : Neat strict role (roleDone role : DriverM β ν Bool) := by
  cases role with
  | client =>
    refine keeps_act rfl fun gone _ => ?_
    split
    · exact neat_perform rfl
    · exact keeps_pure True.intro
  | server => exact keeps_pure True.intro

theorem neat_finished : Neat strict role (finished role : DriverM β ν Bool) := by
  refine keeps_bind neat_roleDone fun done _ => ?_
  split
  · exact neat_perform rfl
  · exact keeps_pure True.intro

theorem neat_keepError {error : Error} (h : ¬strict) :
    Neat strict role (perform (.keepError error) : DriverM β ν Unit) :=
  fun _ hk => ⟨h, fun _ _ => ⟨True.intro, hk⟩⟩

theorem neat_park (fuel : ℕ) (parked : Bool) : Neat strict role (park role fuel parked : DriverM β ν Unit) := by
  induction fuel generalizing parked with
  | zero => exact keeps_outOfFuel
  | succ fuel ih =>
    rw [park]
    refine keeps_act rfl fun empty _ => ?_
    split
    · exact keeps_pure True.intro
    refine keeps_act rfl fun work _ => ?_
    split
    · exact keeps_pure True.intro
    refine keeps_bind neat_busy fun busy _ => ?_
    split
    · exact keeps_pure True.intro
    refine keeps_act rfl fun answer hanswer => ?_
    rcases answer with _ | ⟨⟨⟩ | event⟩
    · refine keeps_act rfl fun answer hanswer => ?_
      rcases answer with _ | ⟨⟨⟩ | ⟨⟩⟩
      · exact keeps_act rfl fun _ _ => ih true
      · exact neat_keepError fun hstrict => by cases hanswer hstrict
      · exact keeps_act rfl fun _ _ => ih true
    · exact neat_keepError fun hstrict => by cases hanswer hstrict
    · exact neat_perform rfl

theorem neat_failUnheard (unheard : List (StreamId × ℕ)) :
    Neat strict role (failUnheard unheard : DriverM β ν Unit) := by
  induction unheard with
  | nil => exact keeps_pure True.intro
  | cons reset rest ih => exact keeps_bind (neat_failStream _ _) fun _ _ => ih

theorem neat_endOfPass (fuel : ℕ) (hadEvents : Bool) :
    Neat strict role (endOfPass role fuel hadEvents : DriverM β ν Bool) := by
  refine keeps_act rfl fun gone _ => ?_
  split
  · exact keeps_pure True.intro
  refine keeps_bind neat_finished fun done _ => ?_
  split
  · refine keeps_act rfl fun pending _ => ?_
    split
    · exact keeps_pure True.intro
    · exact keeps_bind (neat_transport _) fun _ _ => keeps_pure True.intro
  split
  · exact keeps_pure True.intro
  refine keeps_bind neat_busy fun busy _ => ?_
  split
  · exact keeps_pure True.intro
  refine keeps_act rfl fun observed _ => ?_
  split
  · exact keeps_pure True.intro
  refine keeps_bind neat_finished fun done _ => ?_
  split
  · exact keeps_pure True.intro
  refine keeps_act rfl fun pending _ => ?_
  split
  · exact keeps_pure True.intro
  · exact keeps_bind (neat_park _ _) fun _ _ => keeps_pure True.intro

theorem neat_pass (config : Http3Passes.Config) (fuel : ℕ) :
    Neat strict role (pass role config fuel : DriverM β ν Bool) := by
  refine keeps_bind (keeps_pollUntilReady (Keeps.mono neat_pollBind fun _ _ _ _ => True.intro) fuel) fun _ _ => ?_
  refine keeps_bind (neat_takeEvents _) fun _ _ => keeps_bind (neat_applyEvents _) fun _ _ => ?_
  refine keeps_bind neat_finishBodies fun _ _ => keeps_bind neat_applyWork fun _ _ => ?_
  refine keeps_bind (neat_openStreams _ _) fun _ _ => keeps_bind (neat_advance _) fun _ _ => ?_
  refine keeps_bind (neat_dispatch _) fun _ _ => keeps_bind (neat_failUnheard _) fun _ _ => ?_
  refine keeps_bind (neat_transmit _ fun _ => rfl) fun _ _ => keeps_bind (neat_dispatch _) fun _ _ => ?_
  exact neat_endOfPass _ _

theorem neat_passes (config : Http3Passes.Config) (fuel turns : ℕ) :
    Neat strict role (passes role config fuel turns : DriverM β ν Unit) := by
  induction turns with
  | zero => exact keeps_outOfFuel
  | succ turns ih =>
    refine keeps_bind (neat_pass _ _) fun done _ => ?_
    split
    · exact keeps_pure True.intro
    · exact ih

theorem neat_run (config : Http3Passes.Config) (fuel : ℕ) :
    Neat strict role (run role config fuel : DriverM β ν Unit) :=
  keeps_act rfl fun _ _ => neat_passes _ _ _

end Functions

/-! ## The guard -/

/-- What a guard leaves that has finished: nothing is held or registered, and a client's queue was
swept. -/
def Desk.Done (role : Role) (k : Desk) : Prop := k.Tidy ∧ k.cleared = true ∧ (role = .client → k.swept = true)

section Guard
variable [Nghttp3 ν] [Http] {strict : Prop} {role : Role}

variable {k : Desk}

theorem follows_failEach {entries : List Entry}
    (hslots : k.slots = (entries.filterMap (·.slot)).length) (hbodies : k.bodies = entries.length) :
    Follows (desk strict role) (fun _ k' => k' = { k with slots := 0, bodies := 0 }) (fun error _ => nomatch error)
      (failEach entries : Prog (Op β ν) Empty Unit) k := by
  induction entries generalizing k with
  | nil =>
    obtain ⟨hand, slots, bodies, queued, cleared, swept⟩ := k
    simp only [List.filterMap_nil, List.length_nil] at hslots hbodies
    subst hslots hbodies
    exact rfl
  | cons entry rest ih =>
    obtain ⟨slot, incoming⟩ := entry
    rw [List.length_cons] at hbodies
    cases slot with
    | none =>
      refine ⟨by simp [desk, Desk.allows, hbodies], fun _ _ => ?_⟩
      exact ih (k := { k with bodies := k.bodies - 1 }) (by simpa using hslots) (by simp [hbodies])
    | some slot =>
      have hslots : k.slots = (rest.filterMap (·.slot)).length + 1 := by simpa using hslots
      refine ⟨by simp [desk, Desk.allows, hslots], fun _ _ => ⟨by simp [desk, Desk.allows, Desk.next, hbodies], ?_⟩⟩
      intro _ _
      exact ih (k := { k with slots := k.slots - 1, bodies := k.bodies - 1 }) (by simp [hslots]) (by simp [hbodies])

theorem follows_abandonQueued {n : ℕ} (h : k.queued = some n) :
    Follows (desk strict role) (fun _ k' => k' = { k with queued := some 0 }) (fun error _ => nomatch error)
      (abandonQueued n : Prog (Op β ν) Empty Unit) k := by
  induction n generalizing k with
  | zero =>
    show k = _
    rw [← h]
  | succ n ih =>
    refine ⟨⟨n, h⟩, fun _ _ => ?_⟩
    exact ih (k := { k with queued := k.queued.map (· - 1) }) (by simp [h])

theorem follows_abandon (hk : k.Tidy) (hcleared : k.cleared = true) :
    Follows (desk strict role) (fun _ k' => k'.Done role) (fun error _ => nomatch error)
      (abandon role : Prog (Op β ν) Empty Unit) k := by
  obtain ⟨hhand, hslots, hbodies, hqueued⟩ := hk
  cases role with
  | client =>
    refine ⟨hqueued, fun queued _ => ?_⟩
    show Follows _ _ _ (abandonQueued queued >>= fun _ => perform .unlockQueue) _
    rw [follows_bind]
    refine (follows_abandonQueued rfl).mono ?_ fun error => nomatch error
    rintro ⟨⟩ _ rfl
    exact ⟨rfl, fun _ _ => ⟨⟨hhand, hslots, hbodies, rfl⟩, hcleared, fun _ => rfl⟩⟩
  | server => exact ⟨True.intro, fun _ _ => ⟨⟨hhand, hslots, hbodies, hqueued⟩, hcleared, nofun⟩⟩

theorem follows_dropGuard (hk : k.Tidy) :
    Follows (desk strict role) (fun _ k' => k'.Done role) (fun error _ => nomatch error)
      (dropGuard role : Prog (Op β ν) Empty Unit) k := by
  refine ⟨True.intro, fun _ _ => ⟨True.intro, fun _ _ => ⟨True.intro, fun entries _ => ?_⟩⟩⟩
  show Follows _ _ _ (failEach entries >>= fun _ => abandon role) _
  rw [follows_bind]
  refine (follows_failEach ?_ ?_).mono ?_ fun error => nomatch error
  · simp [desk, Desk.next, hk.2.1]
  · simp [desk, Desk.next, hk.2.2.1]
  · rintro ⟨⟩ _ rfl
    exact follows_abandon ⟨hk.1, rfl, rfl, hk.2.2.2⟩ rfl

theorem connection_discipline (config : Http3Passes.Config) (fuel : ℕ) : Discipline
    (connection (β := β) (ν := ν) (η := η) role config fuel) (desk strict role) Desk.Tidy (Desk.Done role)
    (fun _ _ => ¬strict) where
  cleanup _ hk := follows_dropGuard hk
  yields op _ hyields hallows := by
    cases op with
    | await => exact hallows
    | _ => cases hyields
  program k hk := (neat_run config fuel k hk).mono (fun _ _ h => h.2) fun _ _ h => h

end Guard

end Ngnet.Http3Discipline
