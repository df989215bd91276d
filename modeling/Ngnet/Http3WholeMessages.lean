import Ngnet.Http3Containment
import Ngnet.Http3Lifetimes

/-!
# A body that ends cleanly was received whole

What a body has yielded and what waits in it is what was observed for it, in order. It reports its
end where its receiving side is finished, and only there; and the receiving side is finished on the
end of the message that the state machine reports, but also where the stream closes. A stream that
closes before the end of its message therefore leaves a body that ends as if the message were whole,
unless nobody can read it.
-/

namespace Ngnet.Http3WholeMessages
open QmuxVarints QmuxStreams Http3Heads Http3Handles Http3Conn Http3Driver Http3Passes InterleavedPrograms
open Http3DriverSteps Http3HandleSteps Http3Discipline Http3Tracking Http3Placement Http3Lifetimes
open Http3Containment (registered headOf)
open Http3Settlement
open QmuxHttp3Join (QuicEvent)

variable {β ν η α : Type}

/-! ## What a body yields -/

def isFrame : Received → Bool
  | .data _ | .trailers _ => true
  | _ => false

/-- The frames among what was yielded. -/
def frames (yielded : List Received) : List Received := yielded.filter isFrame

/-- The frames of a message for which this was observed. -/
def expected (incoming : Incoming) : List Received :=
  (incoming.observed.filter (· ≠ [])).map .data ++ incoming.sections.map .trailers

def waiting (incoming : Incoming) : List Received :=
  incoming.chunks.map .data ++ incoming.trailers.toList.map .trailers

/-- An error waits, or was yielded. -/
def Broken (incoming : Incoming) : Prop :=
  incoming.failure.isSome = true ∨ ∃ error, .failed error ∈ incoming.yielded

/-- The body has yielded an error, or will once everything that waits was read. -/
def Breaks (incoming : Incoming) : Prop :=
  (∃ error, .failed error ∈ incoming.yielded) ∨ ∃ n error, ((fun i => i.poll.2)^[n] incoming).poll.1 = .failed error

def isReading : BodyPhase → Bool
  | .held | .crediting _ | .waking => true
  | _ => false

/-- The future may still hand over a body. -/
def mayHandOver : FuturePhase → Bool
  | .checkingGone | .checkingRefusing | .failing _ | .pushing | .waking | .pending | .resolving _ => true
  | _ => false

def isOk : Except Error ResponseParts → Bool
  | .ok _ => true
  | .error _ => false

/-- Someone reads the body, or may come to read it. -/
def readable (e : Exchange) : Bool :=
  match e.body with
  | some body => isReading body.phase
  | none => mayHandOver e.future && e.slot.record.any isOk

/-- What was received for an exchange is yielded as it was observed, and its end is that of the message,
for whoever can read it. -/
structure Whole (e : Exchange) : Prop where
  inOrder : e.incoming.abandoned = false → frames e.incoming.yielded ++ waiting e.incoming = expected e.incoming
  atEnd : ∀ before after, e.incoming.yielded = before ++ .finished :: after →
    e.incoming.ended = true ∧ frames before = expected e.incoming
  finished : e.incoming.finished = true → e.incoming.ended = true ∨ readable e = false
  abandoned : e.incoming.abandoned = true → ∃ body, e.body = some body ∧ isReading body.phase = false

structure Truthful (w : World β ν η) : Prop where
  whole : ∀ id, Whole (w.common.exchanges id)
  closed : ∀ id, (w.common.exchanges id).incoming.finished = true → (w.common.exchanges id).incoming.ended = false →
    ¬Registered w.driver id
  broken : ∀ id, readable (w.common.exchanges id) = true → Registered w.driver id ∨ id ∈ w.driver.leavingBodies ∨
    (w.common.exchanges id).incoming.ended = true ∨ Broken (w.common.exchanges id).incoming

/-! ## Receiving -/

theorem frames_append (l r : List Received) : frames (l ++ r) = frames l ++ frames r := List.filter_append ..

theorem frames_frame {r : Received} (h : isFrame r = true) : frames [r] = [r] := by
  simp [frames, h]

theorem frames_other {r : Received} (h : isFrame r = false) : frames [r] = [] := by
  simp [frames, h]

variable {e : Exchange}

theorem no_trailers_waiting (h : Whole e) (hnotAbandoned : e.incoming.abandoned = false)
    (hsections : e.incoming.sections = []) : e.incoming.trailers = none := by
  have horder := h.inOrder hnotAbandoned
  cases htrailers : e.incoming.trailers with
  | none => rfl
  | some fields =>
    have hmem : Received.trailers fields ∈ expected e.incoming := by
      rw [← horder]
      simp [waiting, htrailers]
    simp [expected, hsections] at hmem

theorem whole_push (h : Whole e) (hended : e.incoming.ended = false)
    (hsections : e.incoming.sections = []) (chunk : Bytes) :
    Whole { e with incoming := e.incoming.push chunk } := by
  obtain ⟨hinOrder, hatEnd, hfinished, habandoned⟩ := id h
  have hnone : ∀ before after, e.incoming.yielded ≠ before ++ .finished :: after := by
    intro before after heq
    rw [(hatEnd before after heq).1] at hended
    cases hended
  by_cases habandon : e.incoming.abandoned = true
  · have hpush : e.incoming.push chunk = { e.incoming with observed := e.incoming.observed ++ [chunk] } := by
      simp [Incoming.push, habandon]
    rw [hpush]
    refine ⟨fun hnot => ?_, fun before after heq => (hnone before after heq).elim, hfinished, habandoned⟩
    rw [show _ = false from hnot] at habandon
    cases habandon
  have hnot : e.incoming.abandoned = false := Bool.eq_false_iff.mpr habandon
  have htrailers := no_trailers_waiting h hnot hsections
  have horder := hinOrder hnot
  by_cases hempty : chunk = []
  · have hpush : e.incoming.push chunk = { e.incoming with observed := e.incoming.observed ++ [chunk] } := by
      simp [Incoming.push, hempty]
    rw [hpush]
    refine ⟨fun _ => ?_, fun before after heq => (hnone before after heq).elim, hfinished, habandoned⟩
    simpa [waiting, expected, hempty] using horder
  · have hpush : e.incoming.push chunk =
        { e.incoming with
          observed := e.incoming.observed ++ [chunk]
          chunks := e.incoming.chunks ++ [chunk]
          waker := false } := by
      simp [Incoming.push, hnot, hempty]
    rw [hpush]
    refine ⟨fun _ => ?_, fun before after heq => (hnone before after heq).elim, hfinished, habandoned⟩
    simp only [waiting, expected, htrailers, hsections, Option.toList_none, List.map_nil, List.append_nil, ne_eq,
      decide_not] at horder
    simp only [waiting, expected, htrailers, hsections, Option.toList_none, List.map_nil, List.append_nil, ne_eq,
      decide_not, List.map_append, List.filter_append, List.map_cons, ← List.append_assoc, horder]
    simp [hempty]

theorem whole_setTrailers (h : Whole e) (hended : e.incoming.ended = false)
    (hsections : e.incoming.sections = []) (fields : HeaderMap) :
    Whole { e with incoming := e.incoming.setTrailers fields } := by
  obtain ⟨hinOrder, hatEnd, hfinished, habandoned⟩ := id h
  have hnone : ∀ before after, e.incoming.yielded ≠ before ++ .finished :: after := by
    intro before after heq
    rw [(hatEnd before after heq).1] at hended
    cases hended
  by_cases habandon : e.incoming.abandoned = true
  · have hset : e.incoming.setTrailers fields = { e.incoming with sections := e.incoming.sections ++ [fields] } := by
      simp [Incoming.setTrailers, habandon]
    rw [hset]
    refine ⟨fun hnot => ?_, fun before after heq => (hnone before after heq).elim, hfinished, habandoned⟩
    rw [show _ = false from hnot] at habandon
    cases habandon
  · have hnot : e.incoming.abandoned = false := Bool.eq_false_iff.mpr habandon
    have htrailers := no_trailers_waiting h hnot hsections
    have horder := hinOrder hnot
    have hset : e.incoming.setTrailers fields =
        { e.incoming with
          sections := e.incoming.sections ++ [fields]
          trailers := some fields
          waker := false } := by
      simp [Incoming.setTrailers, hnot]
    rw [hset]
    refine ⟨fun _ => ?_, fun before after heq => (hnone before after heq).elim, hfinished, habandoned⟩
    simp only [waiting, expected, htrailers, hsections, Option.toList_none, List.map_nil, List.append_nil] at horder
    simp only [waiting, expected, hsections, Option.toList_some, List.nil_append, ← List.append_assoc, horder]

theorem whole_endOfMessage (h : Whole e) : Whole { e with incoming := e.incoming.endOfMessage } :=
  ⟨h.inOrder, fun before after heq => ⟨rfl, (h.atEnd before after heq).2⟩, fun _ => .inl rfl, h.abandoned⟩

theorem whole_finish (h : Whole e) (hend : e.incoming.ended = true ∨ readable e = false) :
    Whole { e with incoming := e.incoming.finish } :=
  ⟨h.inOrder, h.atEnd, fun _ => hend, h.abandoned⟩

theorem whole_fail (h : Whole e) (error : Error) : Whole { e with incoming := e.incoming.fail error } := by
  rw [Incoming.fail]
  split
  · exact ⟨h.inOrder, h.atEnd, h.finished, h.abandoned⟩
  · exact ⟨h.inOrder, h.atEnd, h.finished, h.abandoned⟩

theorem fail_end (i : Incoming) (error : Error) :
    (i.fail error).finished = i.finished ∧ (i.fail error).ended = i.ended := by
  rw [Incoming.fail]
  split
  · exact ⟨rfl, rfl⟩
  · exact ⟨rfl, rfl⟩

theorem broken_fail {i : Incoming} (h : i.finished = false) (error : Error) : Broken (i.fail error) := by
  left
  rw [Incoming.fail]
  cases hfailure : i.failure with
  | none => simp [h]
  | some other => simp [hfailure]

/-! ## Reading -/

theorem concat_eq_append_cons {γ : Type} {l before after : List γ} {x y : γ} (h : l ++ [x] = before ++ y :: after) :
    x = y ∧ l = before ∨ ∃ rest, l = before ++ y :: rest := by
  induction after using List.reverseRecOn with
  | nil =>
    obtain ⟨hl, hx⟩ := List.append_inj' h rfl
    exact .inl ⟨List.singleton_inj.mp hx, hl⟩
  | append_singleton rest last =>
    rw [← List.cons_append, ← List.append_assoc] at h
    exact .inr ⟨rest, (List.append_inj' h rfl).1⟩

section Poll
variable {i : Incoming}

attribute [local simp] Incoming.poll Incoming.take

theorem poll_data {chunk : Bytes} {chunks : List Bytes} (h : i.chunks = chunk :: chunks) :
    i.poll = (.data chunk, { i with chunks, yielded := i.yielded ++ [.data chunk] }) := by
  simp [h]

theorem poll_trailers {fields : HeaderMap} (h : i.chunks = []) (htrailers : i.trailers = some fields) :
    i.poll = (.trailers fields, { i with trailers := none, yielded := i.yielded ++ [.trailers fields] }) := by
  simp [h, htrailers]

theorem poll_failed {error : Error} (h : i.chunks = []) (htrailers : i.trailers = none)
    (hfailure : i.failure = some error) :
    i.poll = (.failed error, { i with failure := none, yielded := i.yielded ++ [.failed error] }) := by
  simp [h, htrailers, hfailure]

theorem poll_finished (h : i.chunks = []) (htrailers : i.trailers = none) (hfailure : i.failure = none)
    (hfinished : i.finished = true) : i.poll = (.finished, { i with yielded := i.yielded ++ [.finished] }) := by
  simp [h, htrailers, hfailure, hfinished]

theorem poll_nothing (h : i.chunks = []) (htrailers : i.trailers = none) (hfailure : i.failure = none)
    (hfinished : i.finished = false) : i.poll = (.nothing, { i with waker := true }) := by
  simp [h, htrailers, hfailure, hfinished]

theorem breaks_of_failure (h : i.failure.isSome = true) : Breaks i := by
  obtain ⟨error, herror⟩ := Option.isSome_iff_exists.mp h
  refine .inr ?_
  have htrailers : ∀ i : Incoming, i.failure = some error → i.chunks = [] →
      ∃ n error, ((fun i => i.poll.2)^[n] i).poll.1 = .failed error := by
    intro i herror hchunks
    cases htrailers : i.trailers with
    | none => exact ⟨0, error, congrArg Prod.fst (poll_failed hchunks htrailers herror)⟩
    | some fields =>
      refine ⟨1, error, ?_⟩
      rw [Function.iterate_one, poll_trailers hchunks htrailers]
      exact congrArg Prod.fst (poll_failed (i := { i with trailers := none, yielded := i.yielded ++ [.trailers fields] })
        hchunks rfl herror)
  generalize hchunks : i.chunks = chunks
  induction chunks generalizing i with
  | nil => exact htrailers i herror hchunks
  | cons chunk chunks ih =>
    have hpoll := poll_data hchunks
    obtain ⟨n, error', hn⟩ := ih (i := i.poll.2) (by rw [hpoll]; exact h) (by rw [hpoll]; exact herror) (by rw [hpoll])
    refine ⟨n + 1, error', ?_⟩
    rwa [Function.iterate_succ_apply]

theorem breaks_of_broken (h : Broken i) : Breaks i := h.elim breaks_of_failure .inl

theorem take_rest (i : Incoming) :
    i.take.2.ended = i.ended ∧ i.take.2.finished = i.finished ∧ i.take.2.yielded = i.yielded := by
  rw [Incoming.take]
  split
  · exact ⟨rfl, rfl, rfl⟩
  · exact ⟨rfl, rfl, rfl⟩
  · exact ⟨rfl, rfl, rfl⟩
  · split
    · exact ⟨rfl, rfl, rfl⟩
    · exact ⟨rfl, rfl, rfl⟩

theorem mem_poll {received : Received} (h : received ∈ i.yielded) : received ∈ i.poll.2.yielded := by
  have hkept : received ∈ i.take.2.yielded := (take_rest i).2.2.symm ▸ h
  exact List.mem_append_left _ hkept

theorem broken_poll (h : Broken i) : Broken i.poll.2 := by
  obtain hfailure | ⟨error, hyielded⟩ := h
  · cases hchunks : i.chunks with
    | cons chunk chunks =>
      rw [poll_data hchunks]
      exact .inl hfailure
    | nil =>
      cases htrailers : i.trailers with
      | some fields =>
        rw [poll_trailers hchunks htrailers]
        exact .inl hfailure
      | none =>
        obtain ⟨error, herror⟩ := Option.isSome_iff_exists.mp hfailure
        rw [poll_failed hchunks htrailers herror]
        exact .inr ⟨error, List.mem_append_right _ (List.mem_singleton_self _)⟩
  · exact .inr ⟨error, mem_poll hyielded⟩

end Poll

theorem atEnd_concat (h : Whole e) (hnot : e.incoming.abandoned = false) {received : Received}
    (hend : received = .finished → e.incoming.ended = true ∧ waiting e.incoming = []) (before after : List Received)
    (heq : e.incoming.yielded ++ [received] = before ++ .finished :: after) :
    e.incoming.ended = true ∧ frames before = expected e.incoming := by
  obtain ⟨hreceived, hbefore⟩ | ⟨rest, hearlier⟩ := concat_eq_append_cons heq
  · obtain ⟨hended, hnothing⟩ := hend hreceived
    have horder := h.inOrder hnot
    rw [hnothing, List.append_nil] at horder
    exact ⟨hended, hbefore ▸ horder⟩
  · exact h.atEnd before rest hearlier

theorem whole_poll {body : IncomingBody} (h : Whole e) (hbody : e.body = some body)
    (hheld : body.phase = .held) :
    Whole { e with
      incoming := e.incoming.poll.2
      body := some { body with phase := phaseAfter e.incoming.poll.1 } } := by
  have hread : readable e = true := by simp [readable, hbody, hheld, isReading]
  have hnot : e.incoming.abandoned = false := by
    by_contra habandoned
    obtain ⟨other, hother, hlate⟩ := h.abandoned (Bool.eq_true_of_not_eq_false habandoned)
    rw [hbody] at hother
    cases hother
    simp [hheld, isReading] at hlate
  have habandoned : ∀ {p : Prop}, e.incoming.abandoned = true → p := fun habandoned => by
    rw [hnot] at habandoned
    cases habandoned
  have horder := h.inOrder hnot
  have hfinished : e.incoming.finished = true → e.incoming.ended = true := by
    intro hfin
    obtain hended | hunread := h.finished hfin
    · exact hended
    · rw [hread] at hunread
      cases hunread
  cases hchunks : e.incoming.chunks with
  | cons chunk chunks =>
    rw [poll_data hchunks]
    refine ⟨fun _ => ?_, atEnd_concat h hnot nofun, fun hfin => .inl (hfinished hfin), habandoned⟩
    refine Eq.trans ?_ horder
    simp [frames_append, frames_frame (r := .data chunk) rfl, waiting, hchunks]
  | nil =>
    cases htrailers : e.incoming.trailers with
    | some fields =>
      rw [poll_trailers hchunks htrailers]
      refine ⟨fun _ => ?_, atEnd_concat h hnot nofun, fun hfin => .inl (hfinished hfin), habandoned⟩
      refine Eq.trans ?_ horder
      simp [frames_append, frames_frame (r := .trailers fields) rfl, waiting, hchunks, htrailers]
    | none =>
      have hnothing : waiting e.incoming = [] := by simp [waiting, hchunks, htrailers]
      cases hfailure : e.incoming.failure with
      | some error =>
        rw [poll_failed hchunks htrailers hfailure]
        refine ⟨fun _ => ?_, atEnd_concat h hnot nofun, fun hfin => .inl (hfinished hfin), habandoned⟩
        refine Eq.trans ?_ horder
        simp [frames_append, frames_other (r := .failed error) rfl, waiting]
      | none =>
        cases hfin : e.incoming.finished with
        | true =>
          rw [poll_finished hchunks htrailers hfailure hfin]
          refine ⟨fun _ => ?_, atEnd_concat h hnot fun _ => ⟨hfinished hfin, hnothing⟩, fun hfin => .inl (hfinished hfin),
            habandoned⟩
          refine Eq.trans ?_ horder
          simp [frames_append, frames_other (r := .finished) rfl, waiting]
        | false =>
          rw [poll_nothing hchunks htrailers hfailure hfin]
          exact ⟨fun _ => horder, h.atEnd, fun hfin => .inl (hfinished hfin), habandoned⟩

/-! ## Handles -/

section Handles
variable {e e' : Exchange} {id : ℕ} {action : Common.Action} {given : Option (StreamId × ℕ)}

theorem answered_fail (slot : Slot) (error : Error) : (slot.fail error).record.any isOk = slot.record.any isOk := by
  rw [Slot.fail, Slot.settle]
  split
  · rfl
  · simp [isOk]

theorem readable_bodiless (h : e.body = none) : readable e = (mayHandOver e.future && e.slot.record.any isOk) := by
  simp only [readable, h]

theorem readable_body {body : IncomingBody} (h : e.body = some body) : readable e = isReading body.phase := by
  simp only [readable, h]

theorem readable_of_step (h : ExchangeStep id e action e' given) (hconsistent : Consistent e)
    (hread : readable e' = true) : readable e = true := by
  have hnone : ∀ {phase : FuturePhase}, e.future = phase → phase ≠ .absent → phase ≠ .resolved → phase ≠ .gone →
      e.body = none := by
    rintro phase rfl
    exact hconsistent.no_body
  cases h with
  | moved hmove =>
    have hbody := no_body_of_move hconsistent hmove
    rw [readable_bodiless hbody]
    rw [readable_bodiless (by exact hbody), Bool.and_eq_true] at hread
    obtain ⟨hfuture, hanswered⟩ := hread
    rw [Bool.and_eq_true]
    refine ⟨?_, hanswered⟩
    dsimp only at hfuture
    generalize e.future = before at hmove
    cases hmove with
    | notGone | isGone | notRefusing | isRefusing | woke => rfl
    | _ => cases hfuture
  | refused hfuture =>
    have hbody := hnone hfuture nofun nofun nofun
    rw [readable_bodiless (by exact hbody), Bool.and_eq_true] at hread
    rw [readable_bodiless hbody, hfuture, ← answered_fail]
    exact hread.2
  | dropFailed hfuture =>
    have hbody := hnone hfuture nofun nofun nofun
    rw [readable_bodiless (by exact hbody)] at hread
    cases hread
  | handedOver hfuture =>
    have hbody := hnone hfuture nofun nofun nofun
    have hanswered := hconsistent.resolving _ hfuture
    rw [readable_bodiless hbody, hfuture, Bool.and_eq_true]
    exact ⟨rfl, List.any_eq_true.mpr ⟨_, hanswered, rfl⟩⟩
  | waits hfuture | answered hfuture =>
    have hbody := hnone hfuture nofun nofun nofun
    rw [readable_bodiless (by exact hbody), Bool.and_eq_true] at hread
    rw [readable_bodiless hbody, hfuture, Bool.and_eq_true]
    exact ⟨rfl, hread.2⟩
  | failed hfuture | dropped hfuture =>
    have hbody := hnone hfuture nofun nofun nofun
    rw [readable_bodiless (by exact hbody)] at hread
    cases hread
  | droppedLate =>
    cases hbody : e.body with
    | none =>
      rw [readable_bodiless (by exact hbody)] at hread
      cases hread
    | some body =>
      rw [readable_body (by exact hbody)] at hread
      rwa [readable_body hbody]
  | polled hbody hphase | credited hbody hphase =>
    rw [readable_body hbody, hphase]
    rfl
  | @bodyMoved body phase hbody hmove =>
    rw [readable_body hbody]
    replace hread : isReading phase = true := hread
    generalize body.phase = before at hmove
    cases hmove with
    | woke => rfl
    | dropCreditWoke complete =>
      rw [Common.afterCredit] at hread
      split at hread
      · cases hread
      · cases hread
    | _ => cases hread
  | abandoned =>
    simp only [readable, phaseAbandoned, Common.afterCredit] at hread
    split at hread
    · split at hread
      · cases hread
      · cases hread
    · cases hread
  | dropCredited | bodyDropped => cases hread

theorem end_of_step (h : ExchangeStep id e action e' given) : e'.incoming.ended = e.incoming.ended ∧
    e'.incoming.finished = e.incoming.finished ∧ (Broken e.incoming → Broken e'.incoming) := by
  cases h with
  | polled => exact ⟨(take_rest _).1, (take_rest _).2.1, broken_poll⟩
  | _ => exact ⟨rfl, rfl, fun h => h⟩

theorem whole_of_step (h : ExchangeStep id e action e' given) (hconsistent : Consistent e) (hwhole : Whole e) :
    Whole e' := by
  have hfinished : e.incoming.finished = true → e.incoming.ended = true ∨ readable e' = false := by
    intro hfin
    refine (hwhole.finished hfin).imp_right fun hunread => ?_
    by_contra hread
    rw [readable_of_step h hconsistent (Bool.eq_true_of_not_eq_false hread)] at hunread
    cases hunread
  have hlate : ∀ {body : IncomingBody}, e.body = some body → isReading body.phase = true →
      e.incoming.abandoned = true → False := by
    intro body hbody hreading habandoned
    obtain ⟨other, hother, hnot⟩ := hwhole.abandoned habandoned
    rw [hbody] at hother
    cases hother
    rw [hreading] at hnot
    cases hnot
  cases h with
  | moved | refused | dropFailed | waits | answered | failed | dropped | droppedLate =>
    exact ⟨hwhole.inOrder, hwhole.atEnd, hfinished, hwhole.abandoned⟩
  | handedOver hfuture =>
    have hbody := hconsistent.no_body (by simp [hfuture]) (by simp [hfuture]) (by simp [hfuture])
    refine ⟨hwhole.inOrder, hwhole.atEnd, hfinished, fun habandoned => ?_⟩
    obtain ⟨body, hsome, -⟩ := hwhole.abandoned habandoned
    rw [hbody] at hsome
    cases hsome
  | polled hbody hphase => exact whole_poll hwhole hbody hphase
  | @bodyMoved body phase hbody hmove =>
    refine ⟨hwhole.inOrder, hwhole.atEnd, hfinished, fun habandoned => ⟨_, rfl, ?_⟩⟩
    by_contra hreading
    rw [Bool.not_eq_false] at hreading
    have hread := readable_of_step (.bodyMoved hbody hmove : ExchangeStep id e (.stepBody id) _ none) hconsistent hreading
    rw [readable_body hbody] at hread
    exact hlate hbody hread habandoned
  | credited hbody hphase =>
    exact ⟨hwhole.inOrder, hwhole.atEnd, hfinished, fun habandoned => (hlate hbody (by rw [hphase]; rfl) habandoned).elim⟩
  | @abandoned body complete hbody hphase =>
    refine ⟨nofun, hwhole.atEnd, hfinished, fun _ => ⟨_, rfl, ?_⟩⟩
    dsimp only [phaseAbandoned, Common.afterCredit]
    split
    · split
      · rfl
      · rfl
    · rfl
  | dropCredited hbody => exact ⟨hwhole.inOrder, hwhole.atEnd, hfinished, fun _ => ⟨_, rfl, rfl⟩⟩
  | bodyDropped hbody => exact ⟨hwhole.inOrder, hwhole.atEnd, hfinished, fun _ => ⟨_, rfl, rfl⟩⟩

end Handles

/-! ## The driver -/

section Steps
variable {w w' : World β ν η}

theorem Truthful.of_kept (h : Truthful w)
    (hincoming : ∀ id, (w'.common.exchanges id).incoming = (w.common.exchanges id).incoming)
    (hbody : ∀ id, (w.common.exchanges id).incoming.abandoned = true →
      (w'.common.exchanges id).body = (w.common.exchanges id).body)
    (hread : ∀ id, readable (w'.common.exchanges id) = true → readable (w.common.exchanges id) = true ∨
      Registered w.driver id ∨ Registered w'.driver id ∧ (w.common.exchanges id).incoming.finished = false)
    (hregistered : ∀ id, Registered w'.driver id →
      Registered w.driver id ∨ (w.common.exchanges id).incoming.finished = false)
    (hstays : ∀ id, Registered w.driver id ∨ id ∈ w.driver.leavingBodies →
      Registered w'.driver id ∨ id ∈ w'.driver.leavingBodies) : Truthful w' := by
  refine ⟨fun id => ?_, fun id hfinished hended hreg => ?_, fun id hreadable => ?_⟩
  · obtain ⟨hinOrder, hatEnd, hfinished, habandoned⟩ := h.whole id
    refine ⟨?_, ?_, fun hfin => ?_, fun hab => ?_⟩
    · rwa [hincoming id]
    · rwa [hincoming id]
    · rw [hincoming id] at hfin ⊢
      by_cases hended : (w.common.exchanges id).incoming.ended = true
      · exact .inl hended
      · refine .inr (Bool.eq_false_iff.mpr fun hreadable => ?_)
        obtain hread | hreg | ⟨-, hopen⟩ := hread id hreadable
        · obtain hend | hunread := hfinished hfin
          · exact hended hend
          · rw [hread] at hunread
            cases hunread
        · exact h.closed id hfin (Bool.eq_false_iff.mpr hended) hreg
        · rw [hfin] at hopen
          cases hopen
    · rw [hincoming id] at hab
      rw [hbody id hab]
      exact habandoned hab
  · rw [hincoming id] at hfinished hended
    obtain hreg | hopen := hregistered id hreg
    · exact h.closed id hfinished hended hreg
    · rw [hfinished] at hopen
      cases hopen
  · rw [hincoming id]
    obtain hbefore | hreg | ⟨hreg, -⟩ := hread id hreadable
    · obtain hreg | hleaving | hrest := h.broken id hbefore
      · exact (hstays id (.inl hreg)).imp_right .inl
      · exact (hstays id (.inr hleaving)).imp_right .inl
      · exact .inr (.inr hrest)
    · exact (hstays id (.inl hreg)).imp_right .inl
    · exact .inl hreg

theorem Truthful.of_failed (h : Truthful w)
    (hkept : ∀ id, (w'.common.exchanges id).incoming = (w.common.exchanges id).incoming ∧
      (w'.common.exchanges id).body = (w.common.exchanges id).body ∧
      readable (w'.common.exchanges id) = readable (w.common.exchanges id))
    (hregistered : ∀ id, Registered w'.driver id → Registered w.driver id)
    (hstays : ∀ id, Registered w.driver id ∨ id ∈ w.driver.leavingBodies →
      Registered w'.driver id ∨ id ∈ w'.driver.leavingBodies) : Truthful w' :=
  h.of_kept (fun id => (hkept id).1) (fun id _ => (hkept id).2.1) (fun id hread => .inl ((hkept id).2.2 ▸ hread))
    (fun id hreg => .inl (hregistered id hreg)) hstays

theorem kept_of_alike {e e' : Exchange} (h : Alike e e') :
    e'.incoming = e.incoming ∧ e'.body = e.body ∧ readable e' = readable e := by
  obtain ⟨cancelled, rfl⟩ := h
  exact ⟨rfl, rfl, rfl⟩

theorem kept_fail (c : Common) (id : ℕ) (error : Error) (j : ℕ) :
    ((c.modifySlot id (·.fail error)).exchanges j).incoming = (c.exchanges j).incoming ∧
      ((c.modifySlot id (·.fail error)).exchanges j).body = (c.exchanges j).body ∧
      readable ((c.modifySlot id (·.fail error)).exchanges j) = readable (c.exchanges j) := by
  rw [Common.modifySlot]
  by_cases hj : j = id
  · rw [hj, exchanges_modify_self]
    refine ⟨rfl, rfl, ?_⟩
    simp only [readable, answered_fail]
  · rw [exchanges_modify_of_ne _ _ hj]
    exact ⟨rfl, rfl, rfl⟩

theorem Truthful.of_same (h : Truthful w) (hexchanges : ∀ id, Alike (w.common.exchanges id) (w'.common.exchanges id))
    (hregistry : w'.driver.registry = w.driver.registry)
    (hleaving : w'.driver.leavingBodies = w.driver.leavingBodies) : Truthful w' := by
  have hregistered : ∀ id, Registered w'.driver id ↔ Registered w.driver id := by
    intro id
    rw [Registered, Registered, hregistry]
  refine h.of_failed (fun id => kept_of_alike (hexchanges id)) (fun id => (hregistered id).mp) fun id => ?_
  rw [hregistered, hleaving]
  exact fun h => h

theorem truthful_act (h : Truthful w) (hliving : Living w) (action : Common.Action) :
    Truthful (w.onCommon (·.act action)) := by
  have hacts := acts_act w.common action
  rw [World.onCommon]
  generalize w.common.act action = c' at hacts ⊢
  cases hacts with
  | idle hframe hexchanges => exact h.of_same (fun id => hexchanges ▸ Alike.refl _) rfl rfl
  | @sent request =>
    have hblank := hliving.blank _ (.inl le_rfl)
    refine h.of_kept (fun id => ?_) (fun id hab => ?_) (fun id hread => .inl ?_) (fun _ => .inl) fun _ h => h
    · by_cases hid : id = w.common.created
      · rw [hid, hblank.incoming]
        simp
      · simp only [Function.update_of_ne hid]
    · by_cases hid : id = w.common.created
      · rw [hid, hblank.incoming] at hab
        cases hab
      · simp only [Function.update_of_ne hid]
    · by_cases hid : id = w.common.created
      · rw [hid] at hread
        simp [readable] at hread
      · simpa only [Function.update_of_ne hid] using hread
  | @pushed id request hfuture hrequest hunlocked =>
    have hbody := (hliving.consistent id).no_body (by simp [hfuture]) (by simp [hfuture]) (by simp [hfuture])
    have hself : ((w.common.pushCommand ⟨request, id⟩).setFuture id .waking).exchanges id =
        { w.common.exchanges id with future := .waking } := exchanges_modify_self _ _ _
    refine h.of_failed (fun j => ?_) (fun _ h => h) fun _ h => h
    by_cases hj : j = id
    · rw [hj, hself]
      refine ⟨rfl, rfl, ?_⟩
      rw [readable_bodiless hbody, readable_bodiless (by exact hbody), hfuture]
      rfl
    · have hother : ((w.common.pushCommand ⟨request, id⟩).setFuture id .waking).exchanges j = w.common.exchanges j :=
        exchanges_modify_of_ne _ _ hj
      rw [hother]
      exact ⟨rfl, rfl, rfl⟩
  | @moved _ id e' given _ hstep hframe hexchanges =>
    have hother : ∀ j, j ≠ id → c'.exchanges j = w.common.exchanges j := by
      intro j hj
      rw [hexchanges, Function.update_of_ne hj]
    have hself : c'.exchanges id = e' := by rw [hexchanges, Function.update_self]
    obtain ⟨hended, hfinished, hbroken⟩ := end_of_step hstep
    refine ⟨fun j => ?_, fun j hfin hend => ?_, fun j hread => ?_⟩
    · by_cases hj : j = id
      · rw [hj, hself]
        exact whole_of_step hstep (hliving.consistent id) (h.whole id)
      · rw [hother j hj]
        exact h.whole j
    · by_cases hj : j = id
      · rw [hj, hself] at hfin hend
        rw [hj]
        exact h.closed id (hfinished ▸ hfin) (hended ▸ hend)
      · rw [hother j hj] at hfin hend
        exact h.closed j hfin hend
    · by_cases hj : j = id
      · rw [hj, hself] at hread ⊢
        have hbefore := h.broken id (readable_of_step hstep (hliving.consistent id) hread)
        rw [hended]
        exact hbefore.imp_right fun hrest => hrest.imp_right fun hrest => hrest.imp_right hbroken
      · rw [hother j hj] at hread ⊢
        exact h.broken j hread

variable {stream : StreamId}

theorem truthful_onIncoming (h : Truthful w) {f : Incoming → Incoming}
    (hwhole : ∀ entry, w.driver.entry stream = some entry → Whole { w.common.exchanges entry.incoming with
      incoming := f (w.common.exchanges entry.incoming).incoming })
    (hend : ∀ i : Incoming, (f i).finished = true → (f i).ended = false → i.finished = true ∧ i.ended = false) :
    Truthful (w.onIncoming stream f) := by
  rw [World.onIncoming]
  split
  · rename_i entry hentry
    have hself : (w.common.modifyIncoming entry.incoming f).exchanges entry.incoming = _ := exchanges_modify_self _ _ _
    have hother : ∀ j, j ≠ entry.incoming →
        (w.common.modifyIncoming entry.incoming f).exchanges j = w.common.exchanges j :=
      fun j hj => exchanges_modify_of_ne _ _ hj
    have hregistered : Registered w.driver entry.incoming := ⟨stream.val, entry, hentry, rfl⟩
    refine ⟨fun j => ?_, fun j hfin hended => ?_, fun j hread => ?_⟩
    · by_cases hj : j = entry.incoming
      · simp only [World.onCommon, hj, hself]
        exact hwhole entry hentry
      · simp only [World.onCommon, hother j hj]
        exact h.whole j
    · by_cases hj : j = entry.incoming
      · simp only [World.onCommon, hj, hself] at hfin hended
        obtain ⟨hfin, hended⟩ := hend _ hfin hended
        exact fun hreg => h.closed _ hfin hended (hj ▸ hreg)
      · simp only [World.onCommon, hother j hj] at hfin hended
        exact h.closed j hfin hended
    · by_cases hj : j = entry.incoming
      · exact .inl (hj ▸ hregistered)
      · simp only [World.onCommon, hother j hj] at hread ⊢
        exact h.broken j hread
  · exact h

theorem truthful_retireBody (h : Truthful w) {id : ℕ} {rest : List ℕ} (hleaving : w.driver.leavingBodies = id :: rest)
    (error : Error) :
    Truthful ⟨w.common.modifyIncoming id (·.fail error), { w.driver with leavingBodies := rest }⟩ := by
  have hself : (w.common.modifyIncoming id (·.fail error)).exchanges id = _ := exchanges_modify_self _ _ _
  have hother : ∀ j, j ≠ id → (w.common.modifyIncoming id (·.fail error)).exchanges j = w.common.exchanges j :=
    fun j hj => exchanges_modify_of_ne _ _ hj
  refine ⟨fun j => ?_, fun j hfin hended => ?_, fun j hread => ?_⟩
  · by_cases hj : j = id
    · simp only [hj, hself]
      exact whole_fail (h.whole id) error
    · simp only [hother j hj]
      exact h.whole j
  · by_cases hj : j = id
    · simp only [hj, hself, (fail_end _ error).1, (fail_end _ error).2] at hfin hended
      exact hj ▸ h.closed id hfin hended
    · simp only [hother j hj] at hfin hended
      exact h.closed j hfin hended
  · by_cases hj : j = id
    · simp only [hj, hself] at hread ⊢
      have hbefore : readable (w.common.exchanges id) = true := hread
      rw [(fail_end _ error).2]
      cases hfin : (w.common.exchanges id).incoming.finished with
      | false => exact .inr (.inr (.inr (broken_fail hfin error)))
      | true =>
        obtain hended | hunread := (h.whole id).finished hfin
        · exact .inr (.inr (.inl hended))
        · rw [hbefore] at hunread
          cases hunread
    · simp only [hother j hj] at hread ⊢
      refine (h.broken j hread).imp_right fun hrest => hrest.imp_left fun hmem => ?_
      rw [hleaving] at hmem
      exact (List.mem_cons.mp hmem).resolve_left hj

theorem truthful_finishEntry (h : Truthful w) (hliving : Living w) {entry : Entry}
    (hentry : w.driver.entry stream = some entry)
    (hend : (w.common.exchanges entry.incoming).incoming.ended = true ∨
      readable (w.common.exchanges entry.incoming) = false) (leavingSlots : List ℕ) :
    Truthful ⟨w.common.modifyIncoming entry.incoming (·.finish),
      { w.driver.eraseEntry stream with leavingSlots }⟩ := by
  have hself : (w.common.modifyIncoming entry.incoming (·.finish)).exchanges entry.incoming = _ :=
    exchanges_modify_self _ _ _
  have hother : ∀ j, j ≠ entry.incoming →
      (w.common.modifyIncoming entry.incoming (·.finish)).exchanges j = w.common.exchanges j :=
    fun j hj => exchanges_modify_of_ne _ _ hj
  have hgone : ¬Registered (w.driver.eraseEntry stream) entry.incoming := by
    rintro ⟨key, other, hother, hsame⟩
    rw [DriverState.eraseEntry, getElem?_erase] at hother
    split at hother
    · cases hother
    · rename_i hkey
      exact hkey (hliving.once _ _ _ _ hentry hother hsame.symm)
  refine ⟨fun j => ?_, fun j hfin hended hreg => ?_, fun j hread => ?_⟩
  · by_cases hj : j = entry.incoming
    · simp only [hj, hself]
      exact whole_finish (h.whole _) hend
    · simp only [hother j hj]
      exact h.whole j
  · by_cases hj : j = entry.incoming
    · exact hgone (hj ▸ hreg)
    · simp only [hother j hj] at hfin hended
      obtain ⟨key, other, hlookup, hsame⟩ := hreg
      exact h.closed j hfin hended ⟨key, other, registry_of_erase hlookup, hsame⟩
  · by_cases hj : j = entry.incoming
    · simp only [hj, hself] at hread ⊢
      obtain hended | hunread := hend
      · exact .inr (.inr (.inl hended))
      · have hbefore : readable (w.common.exchanges entry.incoming) = true := hread
        rw [hbefore] at hunread
        cases hunread
    · simp only [hother j hj] at hread ⊢
      refine (h.broken j hread).imp_left ?_
      rintro ⟨key, other, hlookup, hsame⟩
      refine ⟨key, other, ?_, hsame⟩
      rw [DriverState.eraseEntry, getElem?_erase, if_neg]
      · exact hlookup
      · rintro rfl
        have hboth : some entry = some other := hentry.symm.trans hlookup
        cases hboth
        exact hj hsame.symm

theorem Truthful.register (h : Truthful w) {id : ℕ} {slot : Option ℕ}
    (hnew : w.driver.registry[stream.val]? = none)
    (hregistry : w'.driver.registry = w.driver.registry.insert stream.val ⟨slot, id⟩)
    (hleaving : w'.driver.leavingBodies = w.driver.leavingBodies)
    (hother : ∀ j, j ≠ id → w'.common.exchanges j = w.common.exchanges j)
    (hblank : (w.common.exchanges id).incoming = {}) (hincoming : (w'.common.exchanges id).incoming = {}) :
    Truthful w' := by
  have hself : Registered w'.driver id := ⟨stream.val, ⟨slot, id⟩, by rw [hregistry, getElem?_insert, if_pos rfl], rfl⟩
  refine h.of_kept (fun j => ?_) (fun j hab => ?_) (fun j hread => ?_) (fun j hreg => ?_) fun j hbefore => ?_
  · by_cases hj : j = id
    · rw [hj, hincoming, hblank]
    · rw [hother j hj]
  · by_cases hj : j = id
    · rw [hj, hblank] at hab
      cases hab
    · rw [hother j hj]
  · by_cases hj : j = id
    · exact .inr (.inr ⟨hj ▸ hself, by rw [hj, hblank]⟩)
    · exact .inl (hother j hj ▸ hread)
  · obtain ⟨key, entry, hentry, hid⟩ := hreg
    rw [hregistry, getElem?_insert] at hentry
    split at hentry
    · cases hentry
      right
      rw [← hid, hblank]
    · exact .inl ⟨key, entry, hentry, hid⟩
  · rw [hleaving]
    refine hbefore.imp_left ?_
    rintro ⟨key, entry, hentry, hid⟩
    refine ⟨key, entry, ?_, hid⟩
    rw [hregistry, getElem?_insert, if_neg]
    · exact hentry
    · rintro rfl
      rw [hnew] at hentry
      cases hentry

/-- Neither its trailers nor the end of its message were reported for the exchange of a stream. -/
def awaitsContent (w : World β ν η) (stream : StreamId) : Bool :=
  match registered w stream with
  | some id => !(w.common.exchanges id).incoming.ended && (w.common.exchanges id).incoming.sections.isEmpty
  | none => true

/-- The state machine reports the parts of a message in order: its data, its trailers, its end. -/
def inOrder (w : World β ν η) : Op β ν α → Bool
  | .deliverData => match w.driver.taken with
    | .data stream _ :: _ => awaitsContent w stream
    | _ => true
  | .deliverTrailers stream _ => awaitsContent w stream
  | _ => true

/-- A stream is closed behind the end of its message, or where nobody can read it. -/
def endsFirst (w : World β ν η) : Op β ν α → Bool
  | .finishEntry stream =>
    match registered w stream with
    | some id => (w.common.exchanges id).incoming.ended || !readable (w.common.exchanges id)
    | none => true
  | _ => true

theorem awaits_of_registered {entry : Entry} (h : awaitsContent w stream = true)
    (hentry : w.driver.entry stream = some entry) : (w.common.exchanges entry.incoming).incoming.ended = false ∧
      (w.common.exchanges entry.incoming).incoming.sections = [] := by
  simpa [awaitsContent, registered, hentry] using h

variable [QuicConnection β] [Nghttp3 ν] [Handlers η] {strict : Prop} {role : Role} {k : Desk}

theorem truthful_applyOp (h : Truthful w) (hliving : Living w) (hplaced : Placed role w.driver) {op : Op β ν α}
    (htracks : Tracks strict w k) (hallows : k.allows strict role op) (hfresh : fresh w op = true)
    (horder : inOrder w op = true) (hends : endsFirst w op = true) : Truthful (applyOp w op).2 := by
  by_cases hidle : idle op = true
  · have hstill := still_applyOp w hidle
    exact h.of_same hstill.exchanges hstill.registry hstill.leavingBodies
  cases op with
  | callback call =>
    cases call with
    | _ => exact h.of_same (fun _ => .refl _) rfl rfl
  | takeDeferredCredit | keepError | takeError | drainWork | drainObserved | discardClosedSince | lockQueue |
      unlockQueue | giveStream => exact h.of_same (fun _ => .refl _) rfl rfl
  | returnCredit =>
    rw [applyOp]
    split
    · exact h
    · dsimp only [World.onDriver]
      split
      · exact h.of_same (fun _ => .refl _) rfl rfl
      · exact h.of_same (fun _ => .refl _) rfl rfl
  | passObservation =>
    rw [applyOp]
    dsimp only [World.onDriver]
    split
    · exact h
    · exact h
    · exact h.of_same (fun _ => .refl _) rfl rfl
  | deliverData =>
    rw [applyOp]
    simp only [inOrder] at horder
    dsimp only
    split
    · rename_i stream bytes taken htaken
      rw [htaken] at horder
      have hpassed : Truthful (w.onDriver fun d => { d with taken }) := h.of_same (fun _ => .refl _) rfl rfl
      refine truthful_onIncoming hpassed (fun entry hentry => ?_) fun i hfin hended => ?_
      · obtain ⟨hended, hsections⟩ := awaits_of_registered horder hentry
        exact whole_push (h.whole _) hended hsections bytes
      · rw [Incoming.push] at hfin hended
        dsimp only at hfin hended
        split at hfin
        · rename_i habandoned
          rw [if_pos habandoned] at hended
          exact ⟨hfin, hended⟩
        · rename_i habandoned
          rw [if_neg habandoned] at hended
          exact ⟨hfin, hended⟩
    · exact h
  | deliverEnd stream =>
    exact truthful_onIncoming h (fun entry _ => whole_endOfMessage (h.whole _)) fun i _ hended => by cases hended
  | deliverTrailers stream fields =>
    refine truthful_onIncoming h (fun entry hentry => ?_) fun i hfin hended => ?_
    · obtain ⟨hended, hsections⟩ := awaits_of_registered horder hentry
      exact whole_setTrailers (h.whole _) hended hsections fields
    · rw [Incoming.setTrailers] at hfin hended
      dsimp only at hfin hended
      split at hfin
      · rename_i habandoned
        rw [if_pos habandoned] at hended
        exact ⟨hfin, hended⟩
      · rename_i habandoned
        rw [if_neg habandoned] at hended
        exact ⟨hfin, hended⟩
  | completeSlot stream head =>
    rw [applyOp, World.onSlot]
    dsimp only
    split
    · rename_i slot hslot
      obtain ⟨entry, hentry, hid⟩ := Option.bind_eq_some_iff.mp hslot
      have hregistered : Registered w.driver slot := ⟨stream.val, entry, hentry, hliving.slot _ entry slot hentry hid⟩
      have hself : (w.common.modifySlot slot (·.complete head)).exchanges slot = _ := exchanges_modify_self _ _ _
      have hother : ∀ j, j ≠ slot → (w.common.modifySlot slot (·.complete head)).exchanges j = w.common.exchanges j :=
        fun j hj => exchanges_modify_of_ne _ _ hj
      refine h.of_kept (fun j => ?_) (fun j _ => ?_) (fun j hread => ?_) (fun _ => .inl) fun _ h => h
      · by_cases hj : j = slot
        · simp only [World.onCommon, hj, hself]
        · simp only [World.onCommon, hother j hj]
      · by_cases hj : j = slot
        · simp only [World.onCommon, hj, hself]
        · simp only [World.onCommon, hother j hj]
      · by_cases hj : j = slot
        · exact .inr (.inl (hj ▸ hregistered))
        · simp only [World.onCommon, hother j hj] at hread
          exact .inl hread
    · exact h
  | retireSlot stream error =>
    rw [applyOp]
    split
    · exact h
    · rename_i entry hentry
      have hregistered : ∀ id, Registered (w.driver.eraseEntry stream) id → Registered w.driver id := by
        rintro id ⟨key, other, hlookup, hid⟩
        exact ⟨key, other, registry_of_erase hlookup, hid⟩
      have hstays : ∀ id, Registered w.driver id ∨ id ∈ w.driver.leavingBodies →
          Registered (w.driver.eraseEntry stream) id ∨ id ∈ w.driver.leavingBodies ++ [entry.incoming] := by
        rintro id (⟨key, other, hlookup, hid⟩ | hmem)
        · by_cases hkey : stream.val = key
          · subst hkey
            have hboth : some entry = some other := hentry.symm.trans hlookup
            cases hboth
            exact .inr (List.mem_append_right _ (List.mem_singleton.mpr hid.symm))
          · refine .inl ⟨key, other, ?_, hid⟩
            rw [DriverState.eraseEntry, getElem?_erase, if_neg hkey]
            exact hlookup
        · exact .inr (List.mem_append_left _ hmem)
      refine h.of_failed (fun id => ?_) hregistered hstays
      cases hslot : entry.slot with
      | none => exact ⟨rfl, rfl, rfl⟩
      | some slot => exact kept_fail w.common slot error id
  | retireBody error =>
    rw [applyOp]
    dsimp only
    split
    · exact h
    · rename_i id rest hleaving
      exact truthful_retireBody h hleaving error
  | finishEntry stream =>
    rw [applyOp]
    split
    · exact h
    · rename_i entry hentry
      simp only [endsFirst, registered, hentry, Option.map_some, Bool.or_eq_true, Bool.not_eq_true'] at hends
      exact truthful_finishEntry h hliving hentry hends _
  | leavingSettled =>
    rw [applyOp]
    split
    · exact h
    split
    · exact h.of_same (fun _ => .refl _) rfl rfl
    · exact h
  | failLeaving error =>
    rw [applyOp]
    dsimp only
    split
    · exact h
    · rename_i slot rest hleaving
      exact h.of_failed (kept_fail w.common slot error) (fun _ h => h) fun _ h => h
  | takeAll =>
    refine h.of_failed (fun _ => ⟨rfl, rfl, rfl⟩) ?_ ?_
    · rintro id ⟨key, entry, hentry, -⟩
      simp [applyOp, World.onDriver] at hentry
    · rintro id (⟨key, entry, hentry, hid⟩ | hmem)
      · refine .inr (List.mem_append_right _ ?_)
        rw [List.map_map, List.mem_map]
        exact ⟨(key, entry), Std.TreeMap.mem_toList_iff_getElem?_eq_some.mpr hentry, hid⟩
      · exact .inr (List.mem_append_left _ hmem)
  | pop =>
    rw [applyOp]
    split
    · exact h.of_same (fun _ => .refl _) rfl rfl
    · exact h
  | admitRequest =>
    rw [applyOp]
    split
    · exact h
    split
    · exact h.of_same (fun _ => .refl _) rfl rfl
    · exact h.of_same (fun _ => .refl _) rfl rfl
  | refuse error =>
    rw [applyOp]
    dsimp only
    split
    · exact h
    · rename_i hand hhand
      exact h.of_failed (kept_fail w.common hand.command.exchange error) (fun _ h => h) fun _ h => h
  | enterHand ending =>
    obtain ⟨command, stream, hhand⟩ := hand_admitted (htracks.hand.trans hallows)
    have hplaced : stream ∈ w.driver.used ∧ w.driver.registry[stream.val]? = none := hplaced.hand _ hhand
    have hblank := hliving.blank command.exchange (.inr (.inr (.inr ⟨_, hhand, rfl⟩)))
    simp only [applyOp, World.enterHand, hhand]
    refine h.register hplaced.2 rfl rfl (fun j hj => ?_) hblank.incoming ?_
    · simp only [Common.modifySlot, exchanges_modify_of_ne _ _ hj]
    · simp only [Common.modifySlot, exchanges_modify_self, hblank.incoming]
  | abandonNext =>
    rw [applyOp]
    dsimp only
    split
    · exact h
    · rename_i command queue hqueue
      exact h.of_failed (kept_fail { w.common with queue } command.exchange neverSent) (fun _ h => h) fun _ h => h
  | openExchange stream head =>
    have hnew : w.driver.registry[stream.val]? = none := by
      simpa [fresh, DriverState.entry] using hfresh
    have hblank := hliving.blank w.common.created (.inl le_rfl)
    refine h.register hnew rfl rfl (fun j hj => Function.update_of_ne hj _ _) hblank.incoming ?_
    simp [applyOp, World.openExchange]
  | _ => exact (hidle rfl).elim

end Steps

/-! ## Runs -/

section Runs
variable [QuicConnection β] [Nghttp3 ν] [Handlers η] [Http] {role : Role} {config : Http3Passes.Config} {fuel : ℕ}
  {backend : β} {raw : ν} {handlers : η} {choices : List (Choice Common.Action)}

/-- A body that has yielded its end was received whole before, in order; one whose exchange is over before
the end of its message breaks, at the latest once the driver is gone. -/
def CompleteOnly (c : Config (Op β ν) Error Unit (World β ν η)) : Prop :=
  (∀ id before after, (c.state.common.exchanges id).incoming.yielded = before ++ .finished :: after →
    (c.state.common.exchanges id).incoming.ended = true ∧
      frames before = expected (c.state.common.exchanges id).incoming) ∧
  ∀ id, readable (c.state.common.exchanges id) = true → (c.state.common.exchanges id).incoming.ended = false →
    c.stage.isOver = true ∨ ¬Registered c.state.driver id ∧ id ∉ c.state.driver.leavingBodies →
    Breaks (c.state.common.exchanges id).incoming

/-- If every stream closes behind the end of its message, or where nobody can read it, no truncated message
is presented as complete. -/
theorem completeOnly_reached (h : (connection role config fuel).Careful (newWorld role backend raw handlers)
    (fun op w => fresh w op = true ∧ inOrder w op = true ∧ endsFirst w op = true) (fun _ _ => True) choices) :
    CompleteOnly ((connection role config fuel).reached (newWorld role backend raw handlers) choices) := by
  have htruthful := state_invariant (I := fun w : World β ν η => Truthful w) ?_ ?_ ?_
    (careful_living False (fun _ _ _ hstrict => hstrict.elim) (fun _ _ hop => hop.1) h)
  · have hadheres := adheres False (fun _ _ _ hstrict => hstrict.elim) h
    generalize (connection role config fuel).reached (newWorld role backend raw handlers) choices = c at htruthful hadheres
    refine ⟨fun id => (htruthful.whole id).atEnd, fun id hread hended hover => ?_⟩
    have hgone : ¬Registered c.state.driver id ∧ id ∉ c.state.driver.leavingBodies := by
      refine hover.elim (fun hover => ?_) fun hgone => hgone
      obtain ⟨stage, w⟩ := c
      obtain ⟨k, htracks, hdone⟩ := hadheres
      cases stage with
      | running p => cases hover
      | cleaning outcome p => cases hover
      | «over» outcome =>
        obtain ⟨⟨-, -, hbodies, -⟩, hcleared, -⟩ := hdone
        refine ⟨?_, ?_⟩
        · rintro ⟨key, entry, hentry, -⟩
          rw [htracks.cleared hcleared] at hentry
          simp at hentry
        · rw [List.eq_nil_of_length_eq_zero (htracks.bodies.trans hbodies)]
          exact List.not_mem_nil
    obtain hreg | hleaving | hend | hbroken := htruthful.broken id hread
    · exact (hgone.1 hreg).elim
    · exact (hgone.2 hleaving).elim
    · rw [hended] at hend
      cases hend
    · exact breaks_of_broken hbroken
  · refine ⟨fun id => ⟨fun _ => rfl, ?_, by rintro ⟨⟩, by rintro ⟨⟩⟩, by rintro _ ⟨⟩, by rintro _ ⟨⟩⟩
    intro before after heq
    simp [newWorld] at heq
  · rintro α op w htruthful ⟨⟨⟨⟨hfresh, horder, hends⟩, k, htracks, hallows⟩, hplaced⟩, hliving⟩
    exact truthful_applyOp htruthful hliving hplaced htracks hallows hfresh horder hends
  · rintro action w htruthful ⟨_, hliving⟩
    exact truthful_act htruthful hliving action

end Runs

/-! ## Two downloads -/

attribute [local instance] accepting

/-- A client that takes two events in a pass. -/
def pairedClient : System (Op Script Parser) Error Unit (World Script Parser Silent) Common.Action :=
  connection .client { eventsPerPass := 2 } 9

theorem peerStream_le (n : ℕ) : 4 * (n % 2 ^ 32) + 3 ≤ maxVarint := by
  simp only [maxVarint]
  omega

/-- The `n`-th unidirectional stream of a server. -/
def peerStream (n : ℕ) : StreamId := ⟨4 * (n % 2 ^ 32) + 3, peerStream_le n⟩

/-- A response whose head and first chunk arrive in one pass, and what arrives behind it. The last chunk
comes with the end of the message. -/
def download (rest : List QuicEvent) : World Script Parser Silent :=
  startOf ([.accepted (peerStream 0), .accepted (peerStream 1), .data (requestStream 0) [1] false,
      .data (requestStream 0) [2] false] ++ rest)
    [headOf 0 [], [.recvData (requestStream 0) [7]], [.recvData (requestStream 0) [8], .endStream (requestStream 0)]]

/-- A request, `n` steps of the driver, and a caller who reads two frames of the response. -/
def downloading (n : ℕ) : List (Choice Common.Action) :=
  [.other (.sendRequest getRequest)] ++ List.replicate 4 (.other (.stepFuture 0)) ++ List.replicate n .own ++
    [.other (.pollFuture 0), .other (.stepFuture 0), .other (.pollBody 0), .other (.stepBody 0), .other (.stepBody 0),
      .other (.pollBody 0)]

theorem completeOnly_reached_closed_after : CompleteOnly (pairedClient.reached
    (download [.data (requestStream 0) [3] true, .accepted (peerStream 2), .streamClosed (requestStream 0) none none])
    (downloading 140)) :=
  completeOnly_reached (careful_of_carefulFrom (by decide +kernel))

/-- A stream that closes in the batch of its last bytes is closed before they are read. What they carry is
lost, and the body ends cleanly. -/
theorem truncated_body_ends :
    pairedClient.Careful (download [.data (requestStream 0) [3] true, .streamClosed (requestStream 0) none none])
        (fun op w => fresh w op = true ∧ inOrder w op = true) (fun _ _ => True) (downloading 100) ∧
      ¬ CompleteOnly (pairedClient.reached
        (download [.data (requestStream 0) [3] true, .streamClosed (requestStream 0) none none]) (downloading 100)) := by
  refine ⟨careful_of_carefulFrom (by decide +kernel), fun h => ?_⟩
  have hyielded : ((pairedClient.reached
      (download [.data (requestStream 0) [3] true, .streamClosed (requestStream 0) none none])
      (downloading 100)).state.common.exchanges 0).incoming.yielded = [.data [7], .finished] := by decide +kernel
  have hended : ((pairedClient.reached
      (download [.data (requestStream 0) [3] true, .streamClosed (requestStream 0) none none])
      (downloading 100)).state.common.exchanges 0).incoming.ended = false := by decide +kernel
  have hwhole := h.1 0 [.data [7]] [] hyielded
  rw [hended] at hwhole
  cases hwhole.1

end Ngnet.Http3WholeMessages
