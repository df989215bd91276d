import Ngnet.Http3Conn

/-!
# The accounting of outgoing bytes

`BodyRegistry` of `state.rs`: the bodies nghttp3 still points into, and how far each stream was
written and acknowledged, with the two halves of a submission of `conn.rs` that attach a body and
take it back. A submission holds the connection until nghttp3 has answered, so nothing comes
between the two; everything else may come in any order over any streams.

The registry is the one embedded in `Conn`: what a submission, a write and a callback do to it there
is one of these operations.
-/

namespace Ngnet.Http3SendAccounting
open QmuxStreams Http3Conn

/-! ## Maps by stream -/

section Maps
variable {γ : Type} {stream other : StreamId} {entries : List (StreamId × γ)}

@[simp] theorem lookup_cons (value : γ) :
    lookup stream ((other, value) :: entries) =
      if other = stream then some value else lookup stream entries := by
  by_cases h : other = stream <;> simp [lookup, h]

@[simp] theorem lookup_nil : lookup stream ([] : List (StreamId × γ)) = none := rfl

theorem lookup_forget :
    lookup stream (forget other entries) = if stream = other then none else lookup stream entries := by
  induction entries with
  | nil => simp [forget]
  | cons entry rest ih =>
    obtain ⟨key, value⟩ := entry
    by_cases hkey : key = other
    · subst hkey
      have hskip : forget key ((key, value) :: rest) = forget key rest := by simp [forget]
      rw [hskip, ih]
      by_cases hs : stream = key
      · simp [hs]
      · simp [hs, Ne.symm hs]
    · have hkeep : forget other ((key, value) :: rest) = (key, value) :: forget other rest := by
        simp [forget, hkey]
      rw [hkeep, lookup_cons, lookup_cons, ih]
      by_cases hs : key = stream
      · subst hs
        simp [hkey]
      · simp [hs]

theorem lookup_replace (value : γ) :
    lookup stream (replace other value entries) =
      if stream = other then some value else lookup stream entries := by
  rw [replace, lookup_cons, lookup_forget]
  by_cases h : stream = other
  · simp [h]
  · simp [h, Ne.symm h]

end Maps

/-! ## The registry -/

structure BodyRegistry (B : Type) where
  bodies : List (StreamId × B) := []
  offsets : List (StreamId × Offsets) := []

variable {B : Type}

namespace BodyRegistry

def attach (r : BodyRegistry B) (stream : StreamId) (body : B) : Except CoreError Unit × BodyRegistry B :=
  if (lookup stream r.bodies).isSome then
    (.error (invalidInput "that stream already carries an outgoing body"), r)
  else (.ok (), { r with bodies := (stream, body) :: r.bodies })

def detach (r : BodyRegistry B) (stream : StreamId) : BodyRegistry B :=
  { r with bodies := Http3Conn.forget stream r.bodies }

/-- `entry_mut`, and what its caller makes of the entry. -/
def entryMut (r : BodyRegistry B) (stream : StreamId) (f : B → B) : BodyRegistry B :=
  match lookup stream r.bodies with
  | none => r
  | some body => { r with bodies := replace stream (f body) r.bodies }

def forget (r : BodyRegistry B) (stream : StreamId) : BodyRegistry B where
  bodies := Http3Conn.forget stream r.bodies
  offsets := Http3Conn.forget stream r.offsets

def clear (_ : BodyRegistry B) : BodyRegistry B := {}

def recordCommitted (r : BodyRegistry B) (stream : StreamId) (n : ℕ) : BodyRegistry B :=
  if n = 0 then r
  else
    let offsets := (lookup stream r.offsets).getD {}
    let committed := min (offsets.committed + n) (2 ^ 64 - 1)
    { r with offsets := replace stream { offsets with committed } r.offsets }

def recordAcked (r : BodyRegistry B) (stream : StreamId) (n : ℕ) : Except CoreError Unit × BodyRegistry B :=
  if n = 0 then (.ok (), r)
  else match lookup stream r.offsets with
    | none => (.error (invalidInput
        "that stream has nothing outstanding to acknowledge; it was never written to, or it has already closed"), r)
    | some offsets =>
      let acked := offsets.acked + n
      if 2 ^ 64 ≤ acked ∨ offsets.committed < acked then
        (.error (invalidInput
          "more bytes were reported acknowledged than were ever written to that stream"), r)
      else (.ok (), { r with offsets := replace stream { offsets with acked } r.offsets })

/-- `Conn::attach_body`: whether this call attached a body. -/
def attachBody (r : BodyRegistry B) (stream : StreamId) : Option B → Except CoreError Bool × BodyRegistry B
  | none => (.ok false, r)
  | some body => match r.attach stream body with
    | (.ok (), r) => (.ok true, r)
    | (.error error, r) => (.error error, r)

/-- `Conn::detach_attached`. -/
def detachAttached (r : BodyRegistry B) (stream : StreamId) (attached : Bool) : BodyRegistry B :=
  if attached then r.detach stream else r

variable {r r' : BodyRegistry B} {stream : StreamId}

theorem attach_refused {body : B} {error : CoreError}
    (h : r.attach stream body = (.error error, r')) : r' = r := by
  unfold attach at h
  split at h
  · exact (Prod.mk.inj h).2.symm
  · simp at h

theorem recordAcked_refused {n : ℕ} {error : CoreError}
    (h : r.recordAcked stream n = (.error error, r')) : r' = r := by
  unfold recordAcked at h
  split at h
  · simp at h
  split at h
  · exact (Prod.mk.inj h).2.symm
  · dsimp only at h
    split at h
    · exact (Prod.mk.inj h).2.symm
    · simp at h

theorem recordAcked_accepted {n : ℕ}
    (h : r.recordAcked stream n = (.ok (), r')) :
    (n = 0 ∧ r' = r) ∨ ∃ offsets, lookup stream r.offsets = some offsets ∧
      offsets.acked + n ≤ offsets.committed ∧
      r' = { r with offsets := replace stream { offsets with acked := offsets.acked + n } r.offsets } := by
  unfold recordAcked at h
  split at h
  · rename_i hzero
    exact .inl ⟨hzero, (Prod.mk.inj h).2.symm⟩
  split at h
  · simp at h
  · rename_i offsets hlookup
    dsimp only at h
    split at h
    · simp at h
    · exact .inr ⟨offsets, hlookup, by omega, (Prod.mk.inj h).2.symm⟩

end BodyRegistry

/-! ## Runs -/

/-- A submission that nghttp3 has not answered yet, and the body that it attached. -/
structure Submission (B : Type) where
  stream : StreamId
  attached : Option B

/-- The registry in use. `commits` and `acks` count what each stream was reported since it was
last forgotten: the bytes written, and the bytes of the acknowledgements that were accepted. -/
structure Use (B : Type) where
  registry : BodyRegistry B := {}
  submission : Option (Submission B) := none
  commits : StreamId → ℕ := fun _ => 0
  acks : StreamId → ℕ := fun _ => 0

inductive Op (B : Type)
  | submit (stream : StreamId) (body : Option B)
  | answered (accepted : Bool)
  | entry (stream : StreamId) (f : B → B)
  | committed (stream : StreamId) (n : ℕ)
  | acked (stream : StreamId) (n : ℕ)
  | forget (stream : StreamId)
  | clear

namespace Use

/-- What an operation does while no submission is in progress. -/
def operate (u : Use B) : Op B → Use B
  | .submit stream body =>
    match u.registry.attachBody stream body with
    | (.ok attached, registry) =>
      { u with registry, submission := some ⟨stream, if attached then body else none⟩ }
    | (.error _, registry) => { u with registry }
  | .answered _ => u
  | .entry stream f => { u with registry := u.registry.entryMut stream f }
  | .committed stream n =>
    { u with
      registry := u.registry.recordCommitted stream n
      commits := Function.update u.commits stream (u.commits stream + n) }
  | .acked stream n =>
    match u.registry.recordAcked stream n with
    | (.ok (), registry) =>
      { u with registry, acks := Function.update u.acks stream (u.acks stream + n) }
    | (.error _, registry) => { u with registry }
  | .forget stream =>
    { u with
      registry := u.registry.forget stream
      commits := Function.update u.commits stream 0
      acks := Function.update u.acks stream 0 }
  | .clear => { u with registry := u.registry.clear, commits := fun _ => 0, acks := fun _ => 0 }

/-- A submission keeps everything else out until it is answered. -/
def step (u : Use B) (op : Op B) : Use B :=
  match u.submission, op with
  | none, op => u.operate op
  | some _, .answered true => { u with submission := none }
  | some submission, .answered false =>
    { u with
      submission := none
      registry := u.registry.detachAttached submission.stream submission.attached.isSome }
  | some _, _ => u

def reached (ops : List (Op B)) : Use B := ops.foldl step {}

end Use

/-! ## What every run keeps -/

/-- How a stream stands: nothing of it was acknowledged, or its offsets are behind what was
reported. -/
def Behind (offsets : Option Offsets) (commits acks : ℕ) : Prop :=
  match offsets with
  | none => acks = 0
  | some o => o.acked = acks ∧ o.acked ≤ o.committed ∧ o.committed ≤ min commits (2 ^ 64 - 1)

structure Sound (u : Use B) : Prop where
  behind : ∀ stream, Behind (lookup stream u.registry.offsets) (u.commits stream) (u.acks stream)
  attached : ∀ submission ∈ u.submission, ∀ body ∈ submission.attached,
    lookup submission.stream u.registry.bodies = some body

theorem Behind.acks_le {offsets : Option Offsets} {commits acks : ℕ}
    (h : Behind offsets commits acks) : acks ≤ commits := by
  cases offsets with
  | none =>
    obtain rfl : acks = 0 := h
    exact Nat.zero_le _
  | some o =>
    obtain ⟨rfl, hacked, hcommitted⟩ := h
    omega

theorem Behind.committed {offsets : Option Offsets} {commits acks : ℕ}
    (h : Behind offsets commits acks) (n : ℕ) :
    Behind (some { offsets.getD {} with
      committed := min ((offsets.getD {}).committed + n) (2 ^ 64 - 1) }) (commits + n) acks := by
  cases offsets with
  | none =>
    obtain rfl : acks = 0 := h
    refine ⟨rfl, Nat.zero_le _, ?_⟩
    simp only [Option.getD_none]
    omega
  | some o =>
    obtain ⟨rfl, hacked, hcommitted⟩ := h
    simp only [Option.getD_some]
    refine ⟨rfl, ?_, ?_⟩
    · dsimp only
      omega
    · dsimp only
      omega

variable {u : Use B}

theorem behind_recordCommitted (h : Sound u) (stream : StreamId) (n : ℕ)
    (other : StreamId) :
    Behind (lookup other (u.registry.recordCommitted stream n).offsets)
      (Function.update u.commits stream (u.commits stream + n) other) (u.acks other) := by
  have hbehind := h.behind other
  unfold BodyRegistry.recordCommitted
  split
  · rename_i hzero
    by_cases hother : other = stream
    · subst hother
      simpa [hzero] using hbehind
    · simpa [hother] using hbehind
  · dsimp only
    rw [lookup_replace]
    by_cases hother : other = stream
    · subst hother
      rw [if_pos rfl, Function.update_self]
      exact hbehind.committed n
    · rw [if_neg hother, Function.update_of_ne hother]
      exact hbehind

variable {stream : StreamId}

theorem behind_recordAcked (h : Sound u) {n : ℕ}
    {registry : BodyRegistry B} (haccepted : u.registry.recordAcked stream n = (.ok (), registry))
    (other : StreamId) :
    Behind (lookup other registry.offsets) (u.commits other)
      (Function.update u.acks stream (u.acks stream + n) other) := by
  have hbehind := h.behind other
  rcases BodyRegistry.recordAcked_accepted haccepted with ⟨rfl, rfl⟩ | ⟨o, hlookup, hle, rfl⟩
  · by_cases hother : other = stream
    · subst hother
      simpa using hbehind
    · simpa [hother] using hbehind
  · dsimp only
    rw [lookup_replace]
    by_cases hother : other = stream
    · subst hother
      rw [if_pos rfl, Function.update_self]
      rw [hlookup] at hbehind
      obtain ⟨hacks, hacked, hcommitted⟩ := hbehind
      refine ⟨?_, hle, hcommitted⟩
      dsimp only
      omega
    · rw [if_neg hother, Function.update_of_ne hother]
      exact hbehind

variable {r r' : BodyRegistry B} {body : Option B}

theorem offsets_attachBody
    {result : Except CoreError Bool} (h : r.attachBody stream body = (result, r')) :
    r'.offsets = r.offsets := by
  cases body with
  | none =>
    obtain ⟨-, rfl⟩ := Prod.mk.inj h
    rfl
  | some body =>
    unfold BodyRegistry.attachBody BodyRegistry.attach at h
    dsimp only at h
    split at h <;> rename_i hattach
    · split at hattach
      · simp at hattach
      · obtain ⟨-, rfl⟩ := Prod.mk.inj hattach
        obtain ⟨-, rfl⟩ := Prod.mk.inj h
        rfl
    · split at hattach
      · obtain ⟨-, rfl⟩ := Prod.mk.inj hattach
        obtain ⟨-, rfl⟩ := Prod.mk.inj h
        rfl
      · simp at hattach

theorem attachBody_ok {attached : Bool}
    (h : r.attachBody stream body = (.ok attached, r')) :
    (body = none ∧ attached = false ∧ r' = r) ∨
      ∃ b, body = some b ∧ attached = true ∧ lookup stream r.bodies = none ∧
        r' = { r with bodies := (stream, b) :: r.bodies } := by
  cases body with
  | none =>
    obtain ⟨hattached, rfl⟩ := Prod.mk.inj h
    exact .inl ⟨rfl, by simpa using hattached.symm, rfl⟩
  | some body =>
    unfold BodyRegistry.attachBody BodyRegistry.attach at h
    by_cases hcarries : (lookup stream r.bodies).isSome
    · simp [hcarries] at h
    · simp only [hcarries, Bool.false_eq_true, if_false, Prod.mk.injEq, Except.ok.injEq] at h
      obtain ⟨rfl, rfl⟩ := h
      exact .inr ⟨body, rfl, rfl, by simpa using hcarries, rfl⟩

theorem attachBody_error
    {error : CoreError} (h : r.attachBody stream body = (.error error, r')) : r' = r := by
  cases body with
  | none => simp [BodyRegistry.attachBody] at h
  | some body =>
    unfold BodyRegistry.attachBody at h
    dsimp only at h
    split at h <;> rename_i hattach
    · simp at h
    · obtain ⟨-, rfl⟩ := Prod.mk.inj h
      exact BodyRegistry.attach_refused hattach

theorem sound_operate (h : Sound u) (hfree : u.submission = none) (op : Op B) :
    Sound (u.operate op) := by
  have hnone {v : Use B} (hv : v.submission = none) : ∀ submission ∈ v.submission,
      ∀ body ∈ submission.attached, lookup submission.stream v.registry.bodies = some body := by
    intro submission hsubmission
    rw [hv] at hsubmission
    exact (Option.some_ne_none _ hsubmission.symm).elim
  cases op with
  | submit stream body =>
    unfold Use.operate
    dsimp only
    split
    · rename_i attached registry hattach
      refine ⟨fun other => ?_, ?_⟩
      · dsimp only
        rw [offsets_attachBody hattach]
        exact h.behind other
      · rintro submission hsubmission b hb
        obtain rfl := Option.some.inj hsubmission
        rcases attachBody_ok hattach with ⟨rfl, rfl, rfl⟩ | ⟨b', rfl, rfl, -, rfl⟩
        · exact (Option.some_ne_none b hb.symm).elim
        · obtain rfl := Option.some.inj hb
          simp
    · rename_i error registry hattach
      obtain rfl := attachBody_error hattach
      exact h
  | answered accepted => exact h
  | entry stream f =>
    refine ⟨fun other => ?_, hnone hfree⟩
    show Behind (lookup other (u.registry.entryMut stream f).offsets) _ _
    unfold BodyRegistry.entryMut
    split <;> exact h.behind other
  | committed stream n =>
    exact ⟨behind_recordCommitted h stream n, hnone hfree⟩
  | acked stream n =>
    unfold Use.operate
    dsimp only
    split
    · rename_i registry haccepted
      exact ⟨behind_recordAcked h haccepted, hnone hfree⟩
    · rename_i error registry hrefused
      obtain rfl := BodyRegistry.recordAcked_refused hrefused
      exact h
  | forget stream =>
    refine ⟨fun other => ?_, hnone hfree⟩
    show Behind (lookup other (Http3Conn.forget stream u.registry.offsets))
      (Function.update u.commits stream 0 other) (Function.update u.acks stream 0 other)
    rw [lookup_forget]
    by_cases hother : other = stream
    · subst hother
      rw [if_pos rfl, Function.update_self, Function.update_self]
      rfl
    · rw [if_neg hother, Function.update_of_ne hother, Function.update_of_ne hother]
      exact h.behind other
  | clear => exact ⟨fun _ => rfl, hnone hfree⟩

theorem sound_step (h : Sound u) (op : Op B) : Sound (u.step op) := by
  unfold Use.step
  split
  · rename_i hfree
    exact sound_operate h hfree _
  · exact ⟨h.behind, fun _ hsubmission => (Option.some_ne_none _ hsubmission.symm).elim⟩
  · rename_i submission _
    refine ⟨fun other => ?_, fun _ hsubmission => (Option.some_ne_none _ hsubmission.symm).elim⟩
    show Behind (lookup other (u.registry.detachAttached _ _).offsets) _ _
    unfold BodyRegistry.detachAttached
    split <;> exact h.behind other
  · exact h

theorem sound_reached (ops : List (Op B)) : Sound (Use.reached ops) := by
  have hstart : Sound ({} : Use B) :=
    ⟨fun _ => rfl, fun _ hsubmission => (Option.some_ne_none _ hsubmission.symm).elim⟩
  unfold Use.reached
  generalize ({} : Use B) = u at hstart
  induction ops generalizing u with
  | nil => exact hstart
  | cons op ops ih => exact ih _ (sound_step hstart op)

/-! ## What removes a body -/

theorem body_operate {body : B}
    (h : lookup stream u.registry.bodies = some body) (op : Op B) :
    lookup stream (u.operate op).registry.bodies = some body ∨
      (∃ f, op = .entry stream f ∧ lookup stream (u.operate op).registry.bodies = some (f body)) ∨
      op = .forget stream ∨ op = .clear := by
  cases op with
  | submit other new =>
    left
    unfold Use.operate
    dsimp only
    split
    · rename_i attached registry hattach
      rcases attachBody_ok hattach with ⟨-, -, rfl⟩ | ⟨b, -, -, hfresh, rfl⟩
      · exact h
      · -- a stream that carries a body is not the one that a body was attached to
        have hne : other ≠ stream := by
          rintro rfl
          exact Option.some_ne_none body (h.symm.trans hfresh)
        simpa [hne] using h
    · rename_i error registry hattach
      rw [attachBody_error hattach]
      exact h
  | answered accepted => exact .inl h
  | entry other f =>
    show lookup stream (u.registry.entryMut other f).bodies = _ ∨ _
    unfold Use.operate BodyRegistry.entryMut
    by_cases hother : stream = other
    · subst hother
      rw [h]
      right
      left
      exact ⟨f, rfl, by simp [h, lookup_replace]⟩
    · left
      split
      · exact h
      · simpa [lookup_replace, hother] using h
  | committed other n =>
    left
    show lookup stream (u.registry.recordCommitted other n).bodies = _
    unfold BodyRegistry.recordCommitted
    split <;> exact h
  | acked other n =>
    left
    unfold Use.operate
    dsimp only
    split
    · rename_i registry haccepted
      rcases BodyRegistry.recordAcked_accepted haccepted with ⟨-, rfl⟩ | ⟨o, -, -, rfl⟩
      · exact h
      · exact h
    · rename_i error registry hrefused
      rw [BodyRegistry.recordAcked_refused hrefused]
      exact h
  | forget other =>
    by_cases hother : stream = other
    · subst hother
      exact .inr (.inr (.inl rfl))
    · left
      show lookup stream (Http3Conn.forget other u.registry.bodies) = _
      rw [lookup_forget, if_neg hother]
      exact h
  | clear => exact .inr (.inr (.inr rfl))

theorem body_step (hsound : Sound u) {body : B}
    (h : lookup stream u.registry.bodies = some body) (op : Op B) :
    lookup stream (u.step op).registry.bodies = some body ∨
      (∃ f, op = .entry stream f ∧ lookup stream (u.step op).registry.bodies = some (f body)) ∨
      op = .forget stream ∨ op = .clear ∨
      (op = .answered false ∧ u.submission = some ⟨stream, some body⟩) := by
  unfold Use.step
  split
  · refine (body_operate h _).elim .inl ?_
    rintro (hentry | hforget | hclear)
    · exact .inr (.inl hentry)
    · exact .inr (.inr (.inl hforget))
    · exact .inr (.inr (.inr (.inl hclear)))
  · exact .inl h
  · rename_i submission hsubmission
    obtain ⟨target, attached⟩ := submission
    cases attached with
    | none => exact .inl h
    | some mine =>
      by_cases hother : stream = target
      · -- the body that goes is the one that this submission attached
        subst hother
        have hmine := hsound.attached _ hsubmission mine rfl
        obtain rfl : mine = body := Option.some.inj (hmine.symm.trans h)
        exact .inr (.inr (.inr (.inr ⟨rfl, hsubmission⟩)))
      · left
        show lookup stream (Http3Conn.forget target u.registry.bodies) = _
        rw [lookup_forget, if_neg hother]
        exact h
  · exact .inl h

/-- In every run the acknowledgements of a stream stay behind what was written to it; a body or
an acknowledgement that is refused changes nothing; and a body, with the buffers it retains,
goes only when its stream or everything is forgotten, or when the submission that attached it
fails. -/
theorem accounting_reached (ops : List (Op B)) :
    let u := Use.reached ops
    (∀ stream offsets, lookup stream u.registry.offsets = some offsets →
      offsets.acked ≤ offsets.committed) ∧
    (∀ stream, u.acks stream ≤ u.commits stream) ∧
    (∀ stream body error registry,
      u.registry.attach stream body = (.error error, registry) → registry = u.registry) ∧
    (∀ stream n error registry,
      u.registry.recordAcked stream n = (.error error, registry) → registry = u.registry) ∧
    ∀ stream body op, lookup stream u.registry.bodies = some body →
      lookup stream (u.step op).registry.bodies = some body ∨
      (∃ f, op = .entry stream f ∧ lookup stream (u.step op).registry.bodies = some (f body)) ∨
      op = .forget stream ∨ op = .clear ∨
      (op = .answered false ∧ u.submission = some ⟨stream, some body⟩) := by
  have hsound := sound_reached ops
  refine ⟨?_, ?_, ?_, ?_, ?_⟩
  · intro stream offsets hlookup
    have hbehind := hsound.behind stream
    rw [hlookup] at hbehind
    exact hbehind.2.1
  · intro stream
    exact (hsound.behind stream).acks_le
  · intro stream body error registry
    exact BodyRegistry.attach_refused
  · intro stream n error registry
    exact BodyRegistry.recordAcked_refused
  · intro stream body op hlookup
    exact body_step hsound hlookup op

/-! ## The registry of a connection -/

section Connection
variable {ν : Type} (c : Conn ν) (stream : StreamId)

def registry (c : Conn ν) : BodyRegistry Outgoing := ⟨c.bodies, c.offsets⟩

theorem registry_recordCommitted (n : ℕ) :
    registry (c.recordCommitted stream n) = (registry c).recordCommitted stream n := by
  unfold Conn.recordCommitted BodyRegistry.recordCommitted
  split <;> rfl

theorem registry_recordAcked (n : ℕ) :
    registry (c.recordAcked stream n).2 = ((registry c).recordAcked stream n).2 := by
  unfold Conn.recordAcked BodyRegistry.recordAcked
  split
  · rfl
  dsimp only [registry]
  cases lookup stream c.offsets with
  | none => rfl
  | some offsets =>
    dsimp only
    split <;> rfl

theorem registry_forgetStream : registry (c.forgetStream stream) = (registry c).forget stream := rfl

theorem registry_ackedStreamData (datalen : ℕ) :
    registry (c.ackedStreamData stream datalen) =
      (registry c).entryMut stream fun body => { body with entry := body.entry.onAcked datalen } := by
  unfold Conn.ackedStreamData BodyRegistry.entryMut
  dsimp only [registry]
  cases lookup stream c.bodies <;> rfl

theorem registry_readData (veccnt : ℕ) :
    registry (c.readData stream veccnt).2.2 = (registry c).entryMut stream fun body =>
      { body with entry := (Http3OutgoingBodies.readData body.entry veccnt).2 } := by
  unfold Conn.readData BodyRegistry.entryMut
  dsimp only [registry]
  cases lookup stream c.bodies <;> rfl

variable [Nghttp3 ν]

theorem forget_of_lookup {γ : Type} {entries : List (StreamId × γ)} (h : lookup stream entries = none) :
    forget stream entries = entries := by
  unfold forget
  refine List.filter_eq_self.2 fun entry hentry => ?_
  simp only [lookup, Option.map_eq_none_iff, List.find?_eq_none] at h
  simpa using h entry hentry

/-- A submission attaches its body. Where nghttp3 refuses, the body is taken back; where that makes the connection
unusable everything is let go. -/
theorem registry_submit (body : Option Outgoing) (f : Bool → ν → Option ℤ × ν) (context : String) :
    match c.submit stream body f context with
    | (.ok (), d) => registry d = ((registry c).attachBody stream body).2
    | (.error _, d) => registry d = registry c ∨ registry d = {} := by
  have hrecord : ∀ (c : Conn ν) code, registry (c.record code context false).2 = registry c ∨
      registry (c.record code context false).2 = {} := by
    intro c code
    unfold Conn.record
    split
    · exact .inr rfl
    · exact .inl rfl
  unfold Conn.submit Conn.native
  cases body with
  | none =>
    dsimp only
    rcases f false c.raw with ⟨_ | code, raw⟩
    · rfl
    · exact hrecord { c with raw } code
  | some body =>
    dsimp only
    cases hcarries : lookup stream c.bodies with
    | some other => exact .inl rfl
    | none =>
      rcases f true c.raw with ⟨_ | code, raw⟩
      · simp [BodyRegistry.attachBody, BodyRegistry.attach, registry, hcarries]
      · have htaken : forget stream ((stream, body) :: c.bodies) = c.bodies := by
          simpa [forget] using forget_of_lookup stream hcarries
        dsimp only
        unfold Conn.record
        cases Nghttp3.isFatal ν code with
        | true => exact .inr rfl
        | false =>
          left
          show BodyRegistry.mk (forget stream ((stream, body) :: c.bodies)) c.offsets = registry c
          rw [htaken, registry]

end Connection

end Ngnet.Http3SendAccounting
