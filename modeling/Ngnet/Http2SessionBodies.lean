import Mathlib.Data.Finset.Basic
import Ngnet.Histories
import Ngnet.Http2Heads
import Ngnet.TreeMapTotals

/-!
# What an HTTP/2 session keeps of its submissions

The submissions of `session.rs` of the crate `ngnet-h2`, with the registries of `state.rs` and `on_stream_close` of
`callbacks.rs`. An entry of a body stands at an address that is not used again; what its source reads is left out, but
for its trailers and for its failure. What a call of libnghttp2 returns is part of an event, and so is each callback:
a stream that opens, a body that is read, a stream that closes. These come in any order.
-/

namespace Ngnet.Http2SessionBodies
open Std Histories TreeMapTotals
open Http2Heads (OwnedHeaders validate toTrailerNvVec)
open Http3Heads (ascii)

variable {ε : Type}

/-! ## Errors -/

inductive ErrorKind | protocol | invalidInput | exhausted | internal
  deriving DecidableEq, Repr

structure Error where
  op : String
  kind : ErrorKind
  native : Option ℤ
  detail : Option String
  deriving DecidableEq, Repr

/-- `classify`, by the numbers of the codes `NGHTTP2_ERR_*`. -/
def classify (code : ℤ) : ErrorKind :=
  if code = -901 then .exhausted
  else if code ∈ [-506, -518, -522, -523, -524, -531, -532, -533, -536, -537, -905, -903, -904] then .protocol
  else if code ∈ [-501, -503, -505, -509, -510, -511, -512, -513, -514, -515, -516, -517, -519, -528, -529, -530, -525,
    -527] then .invalidInput
  else .internal

namespace Error

def fromNative (op : String) (code : ℤ) : Error := ⟨op, classify code, some code, none⟩

def misuse (op detail : String) : Error := ⟨op, .invalidInput, none, some detail⟩

/-- `invalid` of `header.rs`. -/
def invalid (detail : String) : Error := misuse "submit headers" detail

end Error

/-! ## The session -/

inductive Role | client | server
  deriving DecidableEq, Repr

inductive Source | push | shared
  deriving DecidableEq, Repr

structure BodyEntry where
  address : ℕ
  source : Source
  trailersReady : Bool := false
  deriving DecidableEq, Repr

/-- Why an entry was released. -/
inductive Cause
  | submission
  | close (stream : ℤ)
  | drop
  deriving DecidableEq, Repr

/-- Beside the registries there is what becomes of each entry, and what libnghttp2 knows: its streams, and the
identifiers that it gave to requests. -/
structure Session (ε : Type) where
  role : Role
  bodies : TreeMap ℤ BodyEntry := ∅
  pending : TreeMap ℤ ε := ∅
  responded : Finset ℤ := ∅
  prepared : ℕ := 0
  attached : List (ℕ × ℤ) := []
  replaced : List ℕ := []
  released : List (ℕ × Cause) := []
  streams : Finset ℤ := ∅
  requested : Finset ℤ := ∅

inductive Outcome (ε : Type)
  | stream (id : ℤ)
  | responded (stream : ℤ)
  | trailed
  | refused (error : Error)
  | handed (error : Option ε)
  | nothing

namespace Session

/-- The address for the next entry. -/
def prepare (s : Session ε) : ℕ × Session ε := (s.prepared, { s with prepared := s.prepared + 1 })

def attach (s : Session ε) (stream : ℤ) (entry : BodyEntry) : Session ε :=
  { s with
    bodies := s.bodies.insert stream entry
    attached := s.attached ++ [(entry.address, stream)]
    replaced := s.replaced ++ (s.bodies[stream]?.map (·.address)).toList }

def discard (s : Session ε) (address : ℕ) : Session ε :=
  { s with released := s.released ++ [(address, .submission)] }

def detach (s : Session ε) (stream : ℤ) : Session ε :=
  match s.bodies[stream]? with
  | some entry =>
    { s with bodies := s.bodies.erase stream, released := s.released ++ [(entry.address, .close stream)] }
  | none => s

def trailersReady (s : Session ε) (stream : ℤ) : Bool := s.bodies[stream]?.any (·.trailersReady)

/-- The end of the session drops its registry. -/
def drop (s : Session ε) : Session ε :=
  { s with
    bodies := ∅
    released := s.released ++ s.bodies.toList.map fun entry => (entry.2.address, .drop) }

def park (s : Session ε) (stream : ℤ) (error : ε) : Session ε :=
  { s with pending := s.pending.insert stream error }

def take (s : Session ε) (stream : ℤ) : Option ε × Session ε :=
  (s.pending[stream]?, { s with pending := s.pending.erase stream })

def claim (s : Session ε) (stream : ℤ) : Bool × Session ε :=
  (stream ∉ s.responded, { s with responded := insert stream s.responded })

def release (s : Session ε) (stream : ℤ) : Session ε := { s with responded := s.responded.erase stream }

def streamIsOpen (s : Session ε) (stream : ℤ) : Bool := stream ≠ 0 ∧ stream ∈ s.streams

/-! ## Submissions -/

def submitRequest (s : Session ε) (headers : OwnedHeaders) (native : ℤ) : Outcome ε × Session ε :=
  match validate headers with
  | .error detail => (.refused (.invalid detail), s)
  | .ok () =>
    if native < 0 then (.refused (.fromNative "nghttp2_submit_request2" native), s)
    else (.stream native, { s with requested := insert native s.requested })

/-- A request with a body of either kind. -/
def submitRequestBody (source : Source) (s : Session ε) (headers : OwnedHeaders) (native : ℤ) :
    Outcome ε × Session ε :=
  match validate headers with
  | .error detail => (.refused (.invalid detail), s)
  | .ok () =>
    let (address, s) := s.prepare
    if native < 0 then (.refused (.fromNative "nghttp2_submit_request2" native), s.discard address)
    else (.stream native, attach { s with requested := insert native s.requested } native { address, source })

def submitRequestWithBody (s : Session ε) := submitRequestBody .push s

def submitRequestWithSharedBody (s : Session ε) := submitRequestBody .shared s

def submitResponse (s : Session ε) (stream : ℤ) (headers : OwnedHeaders) (native : ℤ) : Outcome ε × Session ε :=
  match validate headers with
  | .error detail => (.refused (.invalid detail), s)
  | .ok () =>
    -- The response to a stream that is not open leaves no claim: nothing would release it.
    let track := s.streamIsOpen stream
    let (claimed, s) := if track then s.claim stream else (true, s)
    if ¬ claimed then
      (.refused (.misuse "nghttp2_submit_response2" "a response has already been submitted for this stream"), s)
    else if native ≠ 0 then
      (.refused (.fromNative "nghttp2_submit_response2" native), if track then s.release stream else s)
    else (.responded stream, s)

/-- A response with a body of either kind. -/
def submitResponseBody (source : Source) (s : Session ε) (stream : ℤ) (headers : OwnedHeaders) (native : ℤ) :
    Outcome ε × Session ε :=
  match validate headers with
  | .error detail => (.refused (.invalid detail), s)
  | .ok () =>
    if ¬ s.streamIsOpen stream then
      (.refused (.misuse "nghttp2_submit_response2" "cannot attach a body to a stream that is not open"), s)
    else
      let (claimed, s) := s.claim stream
      if ¬ claimed then
        (.refused (.misuse "nghttp2_submit_response2" "a response has already been submitted for this stream"), s)
      else
        let (address, s) := s.prepare
        if native ≠ 0 then
          (.refused (.fromNative "nghttp2_submit_response2" native), (s.discard address).release stream)
        else (.responded stream, s.attach stream { address, source })

def submitResponseWithBody (s : Session ε) := submitResponseBody .push s

def submitResponseWithSharedBody (s : Session ε) := submitResponseBody .shared s

def submitTrailer (s : Session ε) (stream : ℤ) (headers : OwnedHeaders) (native : ℤ) : Outcome ε × Session ε :=
  match toTrailerNvVec headers with
  | .error detail => (.refused (.invalid detail), s)
  | .ok _ =>
    if ¬ s.trailersReady stream then
      (.refused (.misuse "nghttp2_submit_trailer" ("this stream has no open trailer window; a body source must first " ++
        "report BodyOutcome::EofWithTrailers")), s)
    else if native ≠ 0 then (.refused (.fromNative "nghttp2_submit_trailer" native), s)
    else (.trailed, s)

/-! ## Callbacks -/

def opened (s : Session ε) (stream : ℤ) : Session ε := { s with streams := insert stream s.streams }

/-- The body of a stream ended, and trailers may follow. -/
def bodyEnded (s : Session ε) (stream : ℤ) : Session ε :=
  match s.bodies[stream]? with
  | some entry => { s with bodies := s.bodies.insert stream { entry with trailersReady := true } }
  | none => s

def onStreamClose (s : Session ε) (stream : ℤ) : Outcome ε × Session ε :=
  let s := { s with streams := s.streams.erase stream }
  let s := s.release stream
  let s := s.detach stream
  let (error, s) := s.take stream
  (.handed error, s)

end Session

/-! ## Runs -/

/-- A submission comes with what the call of libnghttp2 answers, where there is one. -/
inductive Event (ε : Type)
  | submitRequest (headers : OwnedHeaders) (native : ℤ)
  | submitRequestWithBody (headers : OwnedHeaders) (native : ℤ)
  | submitRequestWithSharedBody (headers : OwnedHeaders) (native : ℤ)
  | submitResponse (stream : ℤ) (headers : OwnedHeaders) (native : ℤ)
  | submitResponseWithBody (stream : ℤ) (headers : OwnedHeaders) (native : ℤ)
  | submitResponseWithSharedBody (stream : ℤ) (headers : OwnedHeaders) (native : ℤ)
  | submitTrailer (stream : ℤ) (headers : OwnedHeaders) (native : ℤ)
  | opened (stream : ℤ)
  | bodyEnded (stream : ℤ)
  | bodyFailed (stream : ℤ) (error : ε)
  | closed (stream : ℤ)

def Session.step (s : Session ε) : Event ε → Outcome ε × Session ε
  | .submitRequest headers native => s.submitRequest headers native
  | .submitRequestWithBody headers native => s.submitRequestWithBody headers native
  | .submitRequestWithSharedBody headers native => s.submitRequestWithSharedBody headers native
  | .submitResponse stream headers native => s.submitResponse stream headers native
  | .submitResponseWithBody stream headers native => s.submitResponseWithBody stream headers native
  | .submitResponseWithSharedBody stream headers native => s.submitResponseWithSharedBody stream headers native
  | .submitTrailer stream headers native => s.submitTrailer stream headers native
  | .opened stream => (.nothing, s.opened stream)
  | .bodyEnded stream => (.nothing, s.bodyEnded stream)
  | .bodyFailed stream error => (.nothing, s.park stream error)
  | .closed stream => s.onStreamClose stream

/-- A session in the midst of a run, with what has come of each event. -/
def advance (run : Session ε × List (Event ε × Outcome ε)) (event : Event ε) :
    Session ε × List (Event ε × Outcome ε) :=
  ((run.1.step event).2, run.2 ++ [(event, (run.1.step event).1)])

def play (role : Role) (events : List (Event ε)) : Session ε × List (Event ε × Outcome ε) :=
  events.foldl advance ({ role }, [])

/-- What libnghttp2 documents: only a client submits requests, which get new identifiers, and only a server submits
responses. -/
def Session.Allows (s : Session ε) (event : Event ε) : Prop :=
  match (s.step event).1 with
  | .stream id => s.role = .client ∧ id ∉ s.requested
  | .responded _ => s.role = .server
  | _ => True

def Lawful (role : Role) (events : List (Event ε)) : Prop :=
  AtEach (fun before event => (play role before).1.Allows event) events

variable {role : Role}

@[simp] theorem play_nil : play role ([] : List (Event ε)) = ({ role }, []) := rfl

@[simp] theorem play_concat {role : Role} {events : List (Event ε)} {event : Event ε} :
    play role (events ++ [event]) = advance (play role events) event := by
  simp [play]

/-- The responses accepted for a stream since it opened. -/
def answer (stream : ℤ) (n : ℕ) : Event ε × Outcome ε → ℕ
  | (.opened other, _) => if other = stream then 0 else n
  | (_, .responded other) => if other = stream then n + 1 else n
  | _ => n

def answers (stream : ℤ) (trace : List (Event ε × Outcome ε)) : ℕ := trace.foldl (answer stream) 0

/-- The failure of the body of a stream that its close has not been handed yet. -/
def parked (stream : ℤ) (held : Option ε) : Event ε → Option ε
  | .bodyFailed other error => if other = stream then some error else held
  | .closed other => if other = stream then none else held
  | _ => held

/-! ## What a step does -/

def Event.isSubmission : Event ε → Bool
  | .opened _ | .bodyEnded _ | .bodyFailed _ _ | .closed _ => false
  | _ => true

/-- All that a step can do. -/
inductive Steps (s : Session ε) : Event ε → Outcome ε → Session ε → Prop
  | refused {event} (error : Error) (hevent : event.isSubmission) : Steps s event (.refused error) s
  | discarded {event} (error : Error) (hevent : event.isSubmission) :
    Steps s event (.refused error) (s.prepare.2.discard s.prepared)
  | requested {event} (id : ℤ) (hevent : event.isSubmission) :
    Steps s event (.stream id) { s with requested := insert id s.requested }
  | requestedBody {event} (id : ℤ) (source : Source) (hevent : event.isSubmission) :
    Steps s event (.stream id)
      ({ s.prepare.2 with requested := insert id s.requested }.attach id { address := s.prepared, source })
  | unheard {event} (stream : ℤ) (hevent : event.isSubmission) (hopen : s.streamIsOpen stream = false) :
    Steps s event (.responded stream) s
  | responded {event} (stream : ℤ) (hevent : event.isSubmission) (hclaim : stream ∉ s.responded) :
    Steps s event (.responded stream) (s.claim stream).2
  | respondedBody {event} (stream : ℤ) (source : Source) (hevent : event.isSubmission)
    (hclaim : stream ∉ s.responded) :
    Steps s event (.responded stream) ((s.claim stream).2.prepare.2.attach stream { address := s.prepared, source })
  | trailed {event} (hevent : event.isSubmission) : Steps s event .trailed s
  | opened (stream : ℤ) : Steps s (.opened stream) .nothing (s.opened stream)
  | bodyEnded (stream : ℤ) : Steps s (.bodyEnded stream) .nothing (s.bodyEnded stream)
  | bodyFailed (stream : ℤ) (error : ε) : Steps s (.bodyFailed stream error) .nothing (s.park stream error)
  | closed (stream : ℤ) : Steps s (.closed stream) (s.onStreamClose stream).1 (s.onStreamClose stream).2

namespace Session
variable {s : Session ε} {event : Event ε} {source : Source} {stream native : ℤ} {headers : OwnedHeaders}

theorem claim_of_mem (h : stream ∈ s.responded) : s.claim stream = (false, s) := by
  simp [claim, h, Finset.insert_eq_of_mem h]

theorem release_claim (h : stream ∉ s.responded) : (s.claim stream).2.release stream = s := by
  simp [claim, release, Finset.erase_insert h]

theorem release_discard (h : stream ∉ s.responded) :
    ((s.claim stream).2.prepare.2.discard s.prepared).release stream = s.prepare.2.discard s.prepared := by
  simp [claim, release, prepare, discard, Finset.erase_insert h]

theorem steps_submitRequest (hevent : event.isSubmission) :
    Steps s event (s.submitRequest headers native).1 (s.submitRequest headers native).2 := by
  rw [submitRequest]
  split
  · exact .refused _ hevent
  · split
    · exact .refused _ hevent
    · exact .requested _ hevent

theorem steps_submitRequestBody (hevent : event.isSubmission) :
    Steps s event (submitRequestBody source s headers native).1 (submitRequestBody source s headers native).2 := by
  rw [submitRequestBody]
  split
  · exact .refused _ hevent
  · dsimp only
    split
    · exact .discarded _ hevent
    · exact .requestedBody _ source hevent

theorem steps_submitResponse (hevent : event.isSubmission) :
    Steps s event (s.submitResponse stream headers native).1 (s.submitResponse stream headers native).2 := by
  rw [submitResponse]
  split
  · exact .refused _ hevent
  cases hopen : s.streamIsOpen stream with
  | false =>
    by_cases hnative : native = 0
    · simpa [hnative] using Steps.unheard stream hevent hopen
    · simpa [hnative] using Steps.refused _ hevent
  | true =>
    by_cases hclaim : stream ∈ s.responded
    · simpa [claim_of_mem hclaim] using Steps.refused _ hevent
    · have hclaimed : (s.claim stream).1 = true := by simp [claim, hclaim]
      by_cases hnative : native = 0
      · simpa [hnative, hclaimed] using Steps.responded stream hevent hclaim
      · simpa [hnative, hclaimed, release_claim hclaim] using Steps.refused _ hevent

theorem steps_submitResponseBody (hevent : event.isSubmission) :
    Steps s event (submitResponseBody source s stream headers native).1
      (submitResponseBody source s stream headers native).2 := by
  rw [submitResponseBody]
  split
  · exact .refused _ hevent
  split
  · exact .refused _ hevent
  by_cases hclaim : stream ∈ s.responded
  · simpa [claim_of_mem hclaim] using Steps.refused _ hevent
  · have hclaimed : (s.claim stream).1 = true := by simp [claim, hclaim]
    by_cases hnative : native = 0
    · have haddress : (s.claim stream).2.prepare.1 = s.prepared := rfl
      simpa [hnative, hclaimed, haddress] using Steps.respondedBody stream source hevent hclaim
    · have hback := release_discard hclaim
      simp only [hclaimed, hnative, not_true, ne_eq, not_false_eq_true, if_true, if_false]
      exact hback ▸ .discarded _ hevent

theorem steps_submitTrailer (hevent : event.isSubmission) :
    Steps s event (s.submitTrailer stream headers native).1 (s.submitTrailer stream headers native).2 := by
  rw [submitTrailer]
  split
  · exact .refused _ hevent
  split
  · exact .refused _ hevent
  split
  · exact .refused _ hevent
  · exact .trailed hevent

theorem steps (s : Session ε) (event : Event ε) : Steps s event (s.step event).1 (s.step event).2 := by
  cases event with
  | submitRequest => exact steps_submitRequest rfl
  | submitRequestWithBody => exact steps_submitRequestBody rfl
  | submitRequestWithSharedBody => exact steps_submitRequestBody rfl
  | submitResponse => exact steps_submitResponse rfl
  | submitResponseWithBody => exact steps_submitResponseBody rfl
  | submitResponseWithSharedBody => exact steps_submitResponseBody rfl
  | submitTrailer => exact steps_submitTrailer rfl
  | opened => exact .opened _
  | bodyEnded => exact .bodyEnded _
  | bodyFailed => exact .bodyFailed _ _
  | closed => exact .closed _

end Session

/-! ## The ledger of the entries -/

def holding (address : ℕ) (entry : BodyEntry) : ℕ := if entry.address = address then 1 else 0

/-- An entry is released for the reason that is given. -/
def Cause.Fits (attached : List (ℕ × ℤ)) (address : ℕ) : Cause → Prop
  | .submission => ∀ stream, (address, stream) ∉ attached
  | .close stream => (address, stream) ∈ attached
  | .drop => ∃ stream, (address, stream) ∈ attached

variable {address : ℕ} {stream : ℤ}

theorem Cause.Fits.attach {attached : List (ℕ × ℤ)} {next : ℕ} {cause : Cause}
    (h : cause.Fits attached address) (hlt : address < next) : cause.Fits (attached ++ [(next, stream)]) address := by
  cases cause with
  | submission =>
    intro other hother
    simp only [List.mem_append, List.mem_singleton, Prod.mk.injEq] at hother
    rcases hother with hother | ⟨heq, -⟩
    · exact h other hother
    · omega
  | close other => exact List.mem_append_left _ h
  | drop =>
    obtain ⟨other, hother⟩ := h
    exact ⟨other, List.mem_append_left _ hother⟩

structure Sound (s : Session ε) : Prop where
  ledger : ∀ address, (s.released.map (·.1)).count address + total (holding address) s.bodies =
    if address < s.prepared then 1 else 0
  kept : s.replaced = []
  new : ∀ entry ∈ s.attached, entry.1 < s.prepared
  held : ∀ stream entry, s.bodies[stream]? = some entry → (entry.address, stream) ∈ s.attached
  caused : ∀ entry ∈ s.released, entry.1 < s.prepared ∧ entry.2.Fits s.attached entry.1
  client : s.role = .client → ∀ stream, s.bodies[stream]?.isSome → stream ∈ s.requested
  server : s.role = .server → ∀ stream, s.bodies[stream]?.isSome → stream ∈ s.responded

namespace Sound
open Session
variable {s : Session ε} {stream : ℤ}

theorem new_session (role : Role) : Sound ({ role } : Session ε) := by
  constructor <;> simp [total_empty]

theorem congr {t : Session ε} (h : Sound s) (hrole : t.role = s.role) (hbodies : t.bodies = s.bodies)
    (hprepared : t.prepared = s.prepared) (hattached : t.attached = s.attached) (hreplaced : t.replaced = s.replaced)
    (hreleased : t.released = s.released) (hrequested : s.requested ⊆ t.requested)
    (hresponded : s.responded ⊆ t.responded) : Sound t where
  ledger := by
    rw [hreleased, hbodies, hprepared]
    exact h.ledger
  kept := by rw [hreplaced, h.kept]
  new := by
    rw [hattached, hprepared]
    exact h.new
  held := by
    rw [hbodies, hattached]
    exact h.held
  caused := by
    rw [hreleased, hattached, hprepared]
    exact h.caused
  client := by
    intro hclient stream hstream
    rw [hbodies] at hstream
    exact hrequested (h.client (hrole ▸ hclient) stream hstream)
  server := by
    intro hserver stream hstream
    rw [hbodies] at hstream
    exact hresponded (h.server (hrole ▸ hserver) stream hstream)

theorem claim (h : Sound s) (stream : ℤ) : Sound (s.claim stream).2 :=
  h.congr rfl rfl rfl rfl rfl rfl (Finset.Subset.refl _) (Finset.subset_insert _ _)

theorem request (h : Sound s) (id : ℤ) : Sound { s with requested := insert id s.requested } :=
  h.congr rfl rfl rfl rfl rfl rfl (Finset.subset_insert _ _) (Finset.Subset.refl _)

theorem ledger_succ {address prepared : ℕ} : (if address < prepared + 1 then 1 else 0) =
    (if address < prepared then 1 else 0) + if prepared = address then 1 else 0 := by
  rcases Nat.lt_trichotomy address prepared with hlt | rfl | hgt
  · simp [hlt, Nat.lt_succ_of_lt hlt, hlt.ne']
  · simp
  · simp [hgt.not_gt, hgt.ne, show ¬ address < prepared + 1 by omega]

theorem discard (h : Sound s) : Sound (s.prepare.2.discard s.prepared) where
  ledger := by
    intro address
    have hledger := h.ledger address
    have hprepared : (s.prepare.2.discard s.prepared).prepared = s.prepared + 1 := rfl
    rw [hprepared, ledger_succ]
    simp only [prepare, Session.discard, List.map_append, List.map_cons, List.map_nil, List.count_append,
      List.count_singleton, beq_iff_eq]
    omega
  kept := h.kept
  new := by
    intro entry hentry
    have hlt := h.new entry hentry
    simp only [prepare, Session.discard]
    omega
  held := h.held
  caused := by
    intro entry hentry
    simp only [prepare, Session.discard, List.mem_append, List.mem_singleton] at hentry ⊢
    rcases hentry with hentry | rfl
    · obtain ⟨hlt, hfits⟩ := h.caused entry hentry
      exact ⟨by omega, hfits⟩
    · refine ⟨by simp, fun stream hattached => ?_⟩
      have hlt := h.new _ hattached
      simp at hlt
  client := h.client
  server := h.server

theorem attach (h : Sound s) (source : Source) (hnone : s.bodies[stream]? = none)
    (hclient : s.role = .client → stream ∈ s.requested) (hserver : s.role = .server → stream ∈ s.responded) :
    Sound (s.prepare.2.attach stream { address := s.prepared, source }) where
  ledger := by
    intro address
    have hledger := h.ledger address
    have htotal : total (holding address) (s.bodies.insert stream { address := s.prepared, source }) =
        total (holding address) s.bodies + holding address { address := s.prepared, source } :=
      total_insert_new _ hnone
    have hprepared : (s.prepare.2.attach stream { address := s.prepared, source }).prepared = s.prepared + 1 := rfl
    rw [hprepared, ledger_succ]
    simp only [prepare, Session.attach, htotal, holding]
    omega
  kept := by simp [prepare, Session.attach, h.kept, hnone]
  new := by
    intro entry hentry
    simp only [prepare, Session.attach, List.mem_append, List.mem_singleton] at hentry ⊢
    rcases hentry with hentry | rfl
    · exact Nat.lt_succ_of_lt (h.new entry hentry)
    · exact Nat.lt_succ_self _
  held := by
    intro other entry hentry
    simp only [prepare, Session.attach, TreeMap.getElem?_insert, Std.compare_eq_iff_eq] at hentry ⊢
    split at hentry
    · next heq =>
      cases hentry
      simp [heq]
    · exact List.mem_append_left _ (h.held other entry hentry)
  caused := by
    intro entry hentry
    obtain ⟨hlt, hfits⟩ := h.caused entry hentry
    exact ⟨Nat.lt_succ_of_lt hlt, hfits.attach hlt⟩
  client := by
    intro hrole other hother
    simp only [prepare, Session.attach, TreeMap.getElem?_insert, Std.compare_eq_iff_eq] at hother ⊢
    split at hother
    · next heq => exact heq ▸ hclient hrole
    · exact h.client hrole other hother
  server := by
    intro hrole other hother
    simp only [prepare, Session.attach, TreeMap.getElem?_insert, Std.compare_eq_iff_eq] at hother ⊢
    split at hother
    · next heq => exact heq ▸ hserver hrole
    · exact h.server hrole other hother

theorem bodyEnded (h : Sound s) (stream : ℤ) : Sound (s.bodyEnded stream) := by
  rw [Session.bodyEnded]
  split
  case h_2 => exact h
  next entry hentry =>
  have hsome : ∀ other : ℤ,
      (s.bodies.insert stream { entry with trailersReady := true })[other]?.isSome = s.bodies[other]?.isSome := by
    intro other
    rw [TreeMap.getElem?_insert]
    split
    · next heq => simp [← Std.compare_eq_iff_eq.mp heq, hentry]
    · rfl
  constructor
  case ledger =>
    intro address
    have htotal : total (holding address) (s.bodies.insert stream { entry with trailersReady := true }) +
        holding address entry = total (holding address) s.bodies + holding address entry :=
      total_insert (holding address) hentry
    have hledger := h.ledger address
    simp only at hledger ⊢
    omega
  case kept => exact h.kept
  case new => exact h.new
  case held =>
    intro other found hfound
    simp only [TreeMap.getElem?_insert, Std.compare_eq_iff_eq] at hfound
    split at hfound
    · next heq =>
      cases hfound
      exact heq ▸ h.held stream entry hentry
    · exact h.held other found hfound
  case caused => exact h.caused
  case client =>
    intro hrole other hother
    exact h.client hrole other (hsome other ▸ hother)
  case server =>
    intro hrole other hother
    exact h.server hrole other (hsome other ▸ hother)

theorem release (h : Sound s) (hnone : s.bodies[stream]? = none) : Sound (s.release stream) where
  ledger := h.ledger
  kept := h.kept
  new := h.new
  held := h.held
  caused := h.caused
  client := h.client
  server := by
    intro hrole other hother
    have hne : other ≠ stream := by
      rintro rfl
      simp [Session.release, hnone] at hother
    exact Finset.mem_erase.mpr ⟨hne, h.server hrole other hother⟩

theorem detach (h : Sound s) (stream : ℤ) : Sound (s.detach stream) := by
  rw [Session.detach]
  split
  case h_2 => exact h
  next entry hentry =>
  have hback : ∀ (other : ℤ) (found : BodyEntry), (s.bodies.erase stream)[other]? = some found →
      s.bodies[other]? = some found := by
    intro other found hfound
    rw [TreeMap.getElem?_erase] at hfound
    split at hfound
    · cases hfound
    · exact hfound
  have hsome : ∀ other : ℤ, (s.bodies.erase stream)[other]?.isSome → s.bodies[other]?.isSome := by
    intro other hother
    obtain ⟨found, hfound⟩ := Option.isSome_iff_exists.mp hother
    exact Option.isSome_iff_exists.mpr ⟨found, hback other found hfound⟩
  have hheld := h.held stream entry hentry
  constructor
  case ledger =>
    intro address
    have htotal := total_erase (holding address) hentry
    have hledger := h.ledger address
    simp only [List.map_append, List.map_cons, List.map_nil, List.count_append, List.count_singleton, beq_iff_eq]
    rw [holding] at htotal
    omega
  case kept => exact h.kept
  case new => exact h.new
  case held => exact fun other found hfound => h.held other found (hback other found hfound)
  case caused =>
    intro other hother
    simp only [List.mem_append, List.mem_singleton] at hother
    rcases hother with hother | rfl
    · exact h.caused other hother
    · exact ⟨h.new _ hheld, hheld⟩
  case client => exact fun hrole other hother => h.client hrole other (hsome other hother)
  case server => exact fun hrole other hother => h.server hrole other (hsome other hother)

end Sound

variable {s : Session ε}

theorem detach_bodies_self : (s.detach stream).bodies[stream]? = none := by
  rw [Session.detach]
  split
  · simp
  · assumption

theorem release_detach :
    (s.release stream).detach stream = (s.detach stream).release stream := by
  simp only [Session.detach, Session.release]
  split <;> rfl

theorem Sound.onStreamClose (h : Sound s) (stream : ℤ) : Sound (s.onStreamClose stream).2 := by
  have hclosed : Sound { s with streams := s.streams.erase stream } :=
    h.congr rfl rfl rfl rfl rfl rfl (Finset.Subset.refl _) (Finset.Subset.refl _)
  have hreleased := (hclosed.detach stream).release detach_bodies_self
  rw [← release_detach] at hreleased
  exact hreleased.congr rfl rfl rfl rfl rfl rfl (Finset.Subset.refl _) (Finset.Subset.refl _)

theorem Sound.bodies_fresh (h : Sound s) {id : ℤ} (hrole : s.role = .client) (hfresh : id ∉ s.requested) :
    s.bodies[id]? = none := by
  by_contra hsome
  exact hfresh (h.client hrole id (Option.isSome_iff_ne_none.mpr hsome))

theorem Sound.bodies_unclaimed (h : Sound s) (hrole : s.role = .server)
    (hclaim : stream ∉ s.responded) : s.bodies[stream]? = none := by
  by_contra hsome
  exact hclaim (h.server hrole stream (Option.isSome_iff_ne_none.mpr hsome))

theorem Sound.step {s : Session ε} {event : Event ε} (h : Sound s) (hallows : s.Allows event) :
    Sound (s.step event).2 := by
  have hsteps := s.steps event
  rw [Session.Allows] at hallows
  generalize (s.step event).1 = outcome at hsteps hallows
  generalize (s.step event).2 = after at hsteps
  cases hsteps with
  | refused => exact h
  | discarded => exact h.discard
  | requested => exact h.request _
  | requestedBody id source =>
    obtain ⟨hrole, hfresh⟩ := hallows
    refine (h.request id).attach source (h.bodies_fresh hrole hfresh) (fun _ => Finset.mem_insert_self _ _) ?_
    intro hserver
    rw [show s.role = .server from hserver] at hrole
    cases hrole
  | unheard => exact h
  | responded => exact h.claim _
  | respondedBody stream source _ hclaim =>
    refine (h.claim stream).attach source (h.bodies_unclaimed hallows hclaim) ?_ (fun _ => Finset.mem_insert_self _ _)
    intro hclient
    rw [show s.role = .client from hclient] at hallows
    cases hallows
  | trailed => exact h
  | opened => exact h.congr rfl rfl rfl rfl rfl rfl (Finset.Subset.refl _) (Finset.Subset.refl _)
  | bodyEnded => exact h.bodyEnded _
  | bodyFailed => exact h.congr rfl rfl rfl rfl rfl rfl (Finset.Subset.refl _) (Finset.Subset.refl _)
  | closed => exact h.onStreamClose _

variable {events : List (Event ε)}

theorem sound_play (h : Lawful role events) : Sound (play role events).1 := by
  induction events using List.reverseRecOn with
  | nil => exact .new_session role
  | append_singleton events event ih =>
    obtain ⟨hbefore, hallows⟩ := atEach_concat.mp h
    rw [play_concat]
    exact (ih hbefore).step hallows

/-! ## The end of a session -/

theorem count_drop : (s.drop.released.map (·.1)).count address =
    (s.released.map (·.1)).count address + total (holding address) s.bodies := by
  have hheld (entries : List (ℤ × BodyEntry)) :
      (entries.map fun entry => entry.2.address).count address =
        (entries.map fun entry => holding address entry.2).sum := by
    induction entries with
    | nil => rfl
    | cons entry entries ih => simp [List.count_cons, holding, ih, Nat.add_comm]
  simp [Session.drop, total, Function.comp_def, hheld]

theorem Sound.drop_fits (h : Sound s) {cause : Cause}
    (hmem : (address, cause) ∈ s.drop.released) : cause.Fits s.attached address := by
  simp only [Session.drop, List.mem_append, List.mem_map, Prod.mk.injEq] at hmem
  rcases hmem with hmem | ⟨⟨stream, entry⟩, hentry, rfl, rfl⟩
  · exact (h.caused _ hmem).2
  · exact ⟨stream, h.held stream entry (TreeMap.mem_toList_iff_getElem?_eq_some.mp hentry)⟩

/-! ## Responses -/

variable {trace : List (Event ε × Outcome ε)}

theorem answers_concat {entry : Event ε × Outcome ε} :
    answers stream (trace ++ [entry]) = answer stream (answers stream trace) entry := by
  simp [answers]

variable {event : Event ε}

theorem answer_submission {n : ℕ} (hevent : event.isSubmission)
    {outcome : Outcome ε} (houtcome : ∀ other, outcome ≠ .responded other) : answer stream n (event, outcome) = n := by
  cases outcome with
  | responded other => exact absurd rfl (houtcome other)
  | _ => cases event <;> first | rfl | cases hevent

theorem answer_responded {other : ℤ} {n : ℕ} (hevent : event.isSubmission) :
    answer stream n (event, .responded other) = if other = stream then n + 1 else n := by
  cases event <;> first | rfl | cases hevent

/-- An open stream has no response yet, or one that its claim tells of. -/
def Answered (s : Session ε) (trace : List (Event ε × Outcome ε)) : Prop :=
  ∀ stream, s.streamIsOpen stream → answers stream trace ≤ 1 ∧ (answers stream trace ≠ 0 → stream ∈ s.responded)

theorem Answered.congr {t : Session ε}
    {outcome : Outcome ε} (h : Answered s trace) (hstreams : t.streams = s.streams) (hresponded : t.responded = s.responded)
    (hanswer : ∀ stream n, s.streamIsOpen stream → answer stream n (event, outcome) = n) :
    Answered t (trace ++ [(event, outcome)]) := by
  intro stream hopen
  have hopened : s.streamIsOpen stream := by simpa [Session.streamIsOpen, hstreams] using hopen
  rw [answers_concat, hanswer stream _ hopened, hresponded]
  exact h stream hopened

theorem Answered.respond {t : Session ε}
    (h : Answered s trace) (hevent : event.isSubmission) (hclaim : stream ∉ s.responded)
    (hstreams : t.streams = s.streams) (hresponded : t.responded = insert stream s.responded) :
    Answered t (trace ++ [(event, .responded stream)]) := by
  intro other hopen
  have hopened : s.streamIsOpen other := by simpa [Session.streamIsOpen, hstreams] using hopen
  obtain ⟨hle, hresponse⟩ := h other hopened
  rw [answers_concat, answer_responded hevent, hresponded]
  split
  · next heq =>
    subst heq
    have hzero : answers stream trace = 0 := by
      by_contra hne
      exact hclaim (hresponse hne)
    simp [hzero]
  · exact ⟨hle, fun hne => Finset.mem_insert_of_mem (hresponse hne)⟩

theorem detach_streams : (s.detach stream).streams = s.streams := by
  rw [Session.detach]
  split <;> rfl

theorem detach_responded : (s.detach stream).responded = s.responded := by
  rw [Session.detach]
  split <;> rfl

theorem detach_pending : (s.detach stream).pending = s.pending := by
  rw [Session.detach]
  split <;> rfl

theorem onStreamClose_streams :
    (s.onStreamClose stream).2.streams = s.streams.erase stream := detach_streams

theorem onStreamClose_responded :
    (s.onStreamClose stream).2.responded = s.responded.erase stream := detach_responded

theorem onStreamClose_handed :
    (s.onStreamClose stream).1 = .handed s.pending[stream]? := by
  simp [Session.onStreamClose, Session.take, detach_pending, Session.release]

theorem onStreamClose_pending :
    (s.onStreamClose stream).2.pending = s.pending.erase stream := by
  simp [Session.onStreamClose, Session.take, detach_pending, Session.release]

theorem bodyEnded_kept : (s.bodyEnded stream).streams = s.streams ∧
    (s.bodyEnded stream).responded = s.responded ∧ (s.bodyEnded stream).pending = s.pending := by
  rw [Session.bodyEnded]
  split <;> simp

theorem Answered.step {s : Session ε} {trace : List (Event ε × Outcome ε)} (h : Answered s trace) (event : Event ε) :
    Answered (advance (s, trace) event).1 (advance (s, trace) event).2 := by
  have hsteps := s.steps event
  rw [advance]
  generalize (s.step event).1 = outcome at hsteps ⊢
  generalize (s.step event).2 = after at hsteps ⊢
  cases hsteps with
  | refused _ hevent | discarded _ hevent | requested _ hevent | requestedBody _ _ hevent | trailed hevent =>
    exact h.congr rfl rfl fun stream n _ => answer_submission hevent (by simp)
  | unheard stream hevent hclosed =>
    refine h.congr rfl rfl fun other n hopen => ?_
    rw [answer_responded hevent, if_neg]
    rintro rfl
    rw [hclosed] at hopen
    cases hopen
  | responded stream hevent hclaim => exact h.respond hevent hclaim rfl rfl
  | respondedBody stream source hevent hclaim => exact h.respond hevent hclaim rfl rfl
  | opened stream =>
    intro other hopen
    rw [answers_concat]
    by_cases heq : stream = other
    · simp [answer, heq]
    · have hopened : s.streamIsOpen other := by
        simpa [Session.streamIsOpen, Session.opened, Ne.symm heq] using hopen
      simpa [answer, heq, Session.opened] using h other hopened
  | bodyEnded stream => exact h.congr bodyEnded_kept.1 bodyEnded_kept.2.1 fun _ _ _ => rfl
  | bodyFailed => exact h.congr rfl rfl fun _ _ _ => rfl
  | closed stream =>
    intro other hopen
    simp only [Session.streamIsOpen, onStreamClose_streams, Finset.mem_erase, decide_eq_true_eq] at hopen
    obtain ⟨hle, hresponse⟩ := h other (by simp [Session.streamIsOpen, hopen])
    have hanswer : answer other (answers other trace) (.closed stream, (s.onStreamClose stream).1) =
        answers other trace := by
      rw [onStreamClose_handed]
      rfl
    rw [answers_concat, hanswer, onStreamClose_responded]
    exact ⟨hle, fun hne => Finset.mem_erase.mpr ⟨hopen.2.1, hresponse hne⟩⟩

theorem answered_play (role : Role) (events : List (Event ε)) :
    Answered (play role events).1 (play role events).2 := by
  induction events using List.reverseRecOn with
  | nil =>
    intro stream hopen
    simp [answers]
  | append_singleton events event ih =>
    rw [play_concat]
    exact ih.step event

/-! ## The failures of the bodies -/

theorem parked_submission {held : Option ε} (hevent : event.isSubmission) :
    parked stream held event = held := by
  cases event <;> first | rfl | cases hevent

theorem step_pending {s : Session ε} {event : Event ε} {stream : ℤ} :
    (s.step event).2.pending[stream]? = parked stream s.pending[stream]? event := by
  have hsteps := s.steps event
  generalize (s.step event).1 = outcome at hsteps
  generalize (s.step event).2 = after at hsteps ⊢
  cases hsteps with
  | refused _ hevent | discarded _ hevent | requested _ hevent | requestedBody _ _ hevent | unheard _ hevent
  | responded _ hevent | respondedBody _ _ hevent | trailed hevent => exact (parked_submission hevent).symm
  | opened => rfl
  | bodyEnded => simp [bodyEnded_kept.2.2, parked]
  | bodyFailed other error => simp [Session.park, parked, TreeMap.getElem?_insert]
  | closed other => simp [onStreamClose_pending, parked, TreeMap.getElem?_erase]

theorem pending_play :
    (play role events).1.pending[stream]? = events.foldl (parked stream) none := by
  induction events using List.reverseRecOn with
  | nil => simp
  | append_singleton events event ih => simp [advance, step_pending, ih]

/-! ## The bookkeeping of a session -/

theorem step_refused {s : Session ε} {event : Event ε} {error : Error} (h : (s.step event).1 = .refused error) :
    (s.step event).2 = s ∨ (s.step event).2 = s.prepare.2.discard s.prepared := by
  have hsteps := s.steps event
  rw [h] at hsteps
  generalize (s.step event).2 = after at hsteps
  cases hsteps with
  | refused => exact .inl rfl
  | discarded => exact .inr rfl

/-- Every entry that a run prepared is released once, for the reason given; no entry is replaced; an open stream has
at most one response; a refused submission leaves the registries; and a close is handed what its stream's body failed
with. -/
theorem bookkeeping_exact (role : Role) (events : List (Event ε)) (h : Lawful role events) :
    (∀ address, ((play role events).1.drop.released.map (·.1)).count address =
      if address < (play role events).1.prepared then 1 else 0) ∧
    (∀ address cause, (address, cause) ∈ (play role events).1.drop.released →
      cause.Fits (play role events).1.attached address) ∧
    (play role events).1.replaced = [] ∧
    (∀ stream, (play role events).1.streamIsOpen stream → answers stream (play role events).2 ≤ 1) ∧
    (∀ event error, ((play role events).1.step event).1 = .refused error →
      ((play role events).1.step event).2.bodies = (play role events).1.bodies ∧
      ((play role events).1.step event).2.responded = (play role events).1.responded) ∧
    ∀ stream, ((play role events).1.step (.closed stream)).1 = .handed (events.foldl (parked stream) none) := by
  have hsound := sound_play h
  refine ⟨?_, ?_, hsound.kept, ?_, ?_, ?_⟩
  · intro address
    rw [count_drop]
    exact hsound.ledger address
  · intro address cause hmem
    exact hsound.drop_fits hmem
  · intro stream hopen
    exact (answered_play role events stream hopen).1
  · intro event error hrefused
    rcases step_refused hrefused with heq | heq <;> rw [heq] <;> exact ⟨rfl, rfl⟩
  · intro stream
    rw [← pending_play]
    exact onStreamClose_handed

theorem lawful_concat :
    Lawful role (events ++ [event]) ↔ Lawful role events ∧ (play role events).1.Allows event :=
  atEach_concat

/-- A server's stream whose response has a body that fails; a second response to it is refused. -/
def failingResponse : List (Event String) :=
  [] ++ [.opened 1] ++ [.submitResponseWithBody 1 [(ascii ":status", ascii "200")] 0] ++
    [.submitResponse 1 [(ascii ":status", ascii "204")] 0] ++ [.bodyFailed 1 "gone"] ++ [.closed 1]

theorem lawful_failingResponse : Lawful .server failingResponse := by
  rw [failingResponse]
  simp only [lawful_concat]
  refine ⟨⟨⟨⟨⟨atEach_nil, trivial⟩, rfl⟩, trivial⟩, trivial⟩, trivial⟩

theorem bookkeeping_exact_failingResponse :
    ((play .server failingResponse).1.drop.released.map (·.1)).count 0 = 1 ∧
      (play .server failingResponse).1.replaced = [] := by
  obtain ⟨hreleased, -, hkept, -⟩ := bookkeeping_exact .server failingResponse lawful_failingResponse
  have hprepared : (play .server failingResponse).1.prepared = 1 := rfl
  refine ⟨?_, hkept⟩
  rw [hreleased, hprepared, if_pos Nat.one_pos]

end Ngnet.Http2SessionBodies
