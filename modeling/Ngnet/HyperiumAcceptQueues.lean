import Ngnet.HyperiumSteps

/-!
# The accept queues

Over every run of critical sections the two queues hold exactly the streams of the peer that wait
to be accepted, each once and no more than the limit, so that neither `expect` about them fails;
and a stream that the layer below says nothing about after its close is handed out once.
-/

namespace Ngnet.HyperiumAcceptQueues
open QmuxVarints QmuxCloseCodec QmuxErrors QmuxStreams StatefulPrograms QmuxRecordWriter QmuxConnection
open HyperiumCore Core HyperiumHandles HyperiumSteps Relation

variable {β ν : Type}

/-! ## Steps, as the queues see them -/

/-- A step that leaves the queues alone. -/
structure Tame (c d : Core β ν) : Prop where
  pending : ∀ kind, d.pending kind = c.pending kind
  accepted : d.accepted = c.accepted
  grows : Grows c d
  failure : (c.closeIsFailure = true → c.terminal.isSome = true) →
    d.closeIsFailure = true → d.terminal.isSome = true
  streams : ∀ id, Option.Rel (fun s t : StreamState => t.pendingAccept = s.pendingAccept ∧
    (t.lowerClosed = s.lowerClosed ∨ Closed d.routed id)) c.streams[id]? d.streams[id]?

/-- What a step does to the queues. -/
inductive QueueStep : Core β ν → Core β ν → Prop
  | tame {c d : Core β ν} (tame : Tame c d) : QueueStep c d
  | discovered {c d : Core β ν} {id : StreamId} {event : Event} (fresh : Fresh c id)
      (name : named event = some id) (routed : c.routed ++ [event] <+: d.routed)
      (tame : Tame (c.enqueue id) d) : QueueStep c d
  | accepted {c : Core β ν} {kind : AcceptKind} {id : StreamId} {rest : List StreamId} {s : StreamState}
      (first : c.pending kind = id :: rest) (here : c.streams[id]? = some s) :
      QueueStep c { (popPending c kind rest).setStream id (s.accept kind) with
        accepted := c.accepted ++ [id] }
  | panicked {c : Core β ν} {kind : AcceptKind} {id : StreamId} {rest : List StreamId}
      (first : c.pending kind = id :: rest) (unknown : c.streams[id]? = none) :
      QueueStep c (popPending c kind rest)
  | opened {c d : Core β ν} {id : StreamId} {s : StreamState} (new : s.pendingAccept = false)
      (closed : s.lowerClosed = false) (call : ∃ kind, .openStream kind (.ok (.opened id)) ∈ d.lower.conn.calls)
      (tame : Tame c { d with streams := c.streams }) (streams : d.streams = c.streams.insert id s) :
      QueueStep c d
  | retired {c : Core β ν} {id : StreamId} {s : StreamState} (here : c.streams[id]? = some s)
      (pending : s.pendingAccept = false) (lowerClosed : s.lowerClosed = true) :
      QueueStep c { c with streams := c.streams.erase id }

variable {r : StreamState → StreamState → Prop}

theorem rel_same (o : Option StreamState) (h : ∀ s, r s s) :
    Option.Rel r o o := by
  cases o with
  | none => exact .none
  | some s => exact .some (h s)

variable {c d : Core β ν}

theorem tame_of_same (grows : Grows c d) (pending : ∀ kind, d.pending kind = c.pending kind)
    (accepted : d.accepted = c.accepted) (streams : d.streams = c.streams)
    (failure : d.closeIsFailure = c.closeIsFailure) (terminal : d.terminal = c.terminal) : Tame c d := by
  refine ⟨pending, accepted, grows, ?_, ?_⟩
  · intro h
    rwa [failure, terminal]
  · intro id
    rw [streams]
    exact rel_same _ fun s => ⟨rfl, .inl rfl⟩

variable {id : StreamId} {s t : StreamState}

theorem rel_insert {m : StreamMap} {id' : StreamId}
    (here : m[id]? = some s) (hst : id = id' → r s t) (h : ∀ s, r s s) :
    Option.Rel r m[id']? (m.insert id t)[id']? := by
  rw [Std.TreeMap.getElem?_insert]
  split
  · rename_i heq
    obtain rfl := compare_eq_iff.mp heq
    rw [here]
    exact .some (hst rfl)
  · exact rel_same _ h

theorem tame_setStream (here : c.streams[id]? = some s)
    (pendingAccept : t.pendingAccept = s.pendingAccept)
    (lowerClosed : t.lowerClosed = s.lowerClosed ∨ Closed c.routed id) : Tame c (c.setStream id t) := by
  refine ⟨fun kind => by cases kind <;> rfl, rfl, ⟨List.prefix_rfl, List.prefix_rfl, rfl, rfl⟩, fun h => h, ?_⟩
  intro id'
  refine rel_insert here ?_ fun s => ⟨rfl, .inl rfl⟩
  rintro rfl
  exact ⟨pendingAccept, lowerClosed⟩

theorem closed_mono {routed routed' : List Event} (h : routed <+: routed')
    (hclosed : Closed routed id) : Closed routed' id := by
  obtain ⟨event, hevent, hcloses⟩ := hclosed
  exact ⟨event, h.subset hevent, hcloses⟩

variable {a b : Option StreamState}

theorem rel_trans {r' : StreamState → StreamState → Prop} {c : Option StreamState}
    (h : Option.Rel r a b) (h' : Option.Rel r' b c) : Option.Rel (fun s u => ∃ t, r s t ∧ r' t u) a c := by
  cases h with
  | none => cases h'; exact .none
  | some hst =>
    cases h' with
    | some htu => exact .some ⟨_, hst, htu⟩

theorem rel_left
    (h : Option.Rel r (some s) b) : ∃ t, b = some t ∧ r s t := by
  cases h with
  | some hst => exact ⟨_, rfl, hst⟩

theorem rel_right
    (h : Option.Rel r a (some t)) : ∃ s, a = some s ∧ r s t := by
  cases h with
  | some hst => exact ⟨_, rfl, hst⟩

theorem rel_mono {r' : StreamState → StreamState → Prop}
    (h : Option.Rel r a b) (hr : ∀ s t, r s t → r' s t) : Option.Rel r' a b := by
  cases h with
  | none => exact .none
  | some hst => exact .some (hr _ _ hst)

theorem Tame.trans {e : Core β ν} (h : Tame c d) (h' : Tame d e) : Tame c e := by
  refine ⟨fun kind => (h'.pending kind).trans (h.pending kind), h'.accepted.trans h.accepted,
    h.grows.trans h'.grows, fun hc => h'.failure (h.failure hc), ?_⟩
  intro id
  refine rel_mono (rel_trans (h.streams id) (h'.streams id)) ?_
  rintro s u ⟨t, ⟨hst, hclosed⟩, htu, hclosed'⟩
  refine ⟨htu.trans hst, ?_⟩
  rcases hclosed' with heq | hclosed'
  · rcases hclosed with heq' | hclosed
    · exact .inl (heq.trans heq')
    · exact .inr (closed_mono h'.grows.routed hclosed)
  · exact .inr hclosed'

theorem tame_fail (c : Core β ν) (terminal : ConnectionTerminal) : Tame c (c.fail terminal) := by
  refine ⟨fail_pending c terminal, fail_accepted c terminal, fail_grows terminal (.refl c), ?_, ?_⟩
  · intro _ _
    rw [fail_terminal]
    rfl
  · intro id
    rw [fail_lookup]
    cases c.streams[id]? with
    | none => exact .none
    | some s =>
      refine .some ?_
      cases c.terminal.isSome <;> exact ⟨rfl, .inl rfl⟩

theorem tame_observe (c : Core β ν) (event : Event) : Tame c (observe c event) :=
  tame_of_same (observed_grows event) (fun kind => by cases kind <;> rfl) rfl rfl rfl rfl

theorem tame_lower {bytes : ℕ} {l : Connection β ν} (below : Below bytes c.lower l) :
    Tame c { c with lower := l } :=
  tame_of_same ⟨List.prefix_rfl, below.calls, rfl, rfl⟩ (fun kind => by cases kind <;> rfl) rfl rfl rfl rfl

theorem tame_close (c : Core β ν) (reason : Option CloseReason) (failure : Bool)
    (terminal : ConnectionTerminal) :
    Tame c ({ c with close := reason, closeIsFailure := failure }.fail terminal) := by
  have h := tame_fail { c with close := reason, closeIsFailure := failure } terminal
  refine ⟨fun kind => ?_, h.accepted, ⟨h.grows.routed, h.grows.calls, h.grows.role, h.grows.limit⟩,
    fun _ _ => ?_, h.streams⟩
  · rw [h.pending kind]
    cases kind <;> rfl
  · rw [fail_terminal]
    rfl

theorem queueStep_met {e : Core β ν} {event : Event} (met : Met c id d)
    (name : named event = some id) (routed : c.routed ++ [event] <+: e.routed) (tame : Tame d e) :
    QueueStep c e := by
  rcases met with rfl | ⟨fresh, rfl⟩
  · exact .tame tame
  · exact .discovered fresh name routed tame

theorem enqueue_routed (c : Core β ν) (id : StreamId) : (c.enqueue id).routed = c.routed := by
  obtain ⟨_, _, _, _, _, _, heq⟩ := enqueue_same c id
  rw [heq]

theorem Met.routed (met : Met c id d) : d.routed = c.routed := by
  rcases met with rfl | ⟨-, rfl⟩
  · rfl
  · exact enqueue_routed c id

theorem queueStep_of_step {sec : Section} (h : CoreStep sec c d) : QueueStep c d := by
  have grows := step_grows h
  cases h with
  | effects _ => exact .tame (tame_of_same grows (fun kind => by cases kind <;> rfl) rfl rfl rfl rfl)
  | lower _ => exact .tame (tame_of_same grows (fun kind => by cases kind <;> rfl) rfl rfl rfl rfl)
  | slots _ => exact .tame (tame_of_same grows (fun kind => by cases kind <;> rfl) rfl rfl rfl rfl)
  | resolved _ _ _ _ => exact .tame (tame_of_same grows (fun kind => by cases kind <;> rfl) rfl rfl rfl rfl)
  | refunded _ => exact .tame (tame_of_same grows (fun kind => by cases kind <;> rfl) rfl rfl rfl rfl)
  | observed _ met =>
    rcases met with rfl | ⟨id, name, met⟩
    · exact .tame (tame_observe _ _)
    · refine queueStep_met met name ?_ (tame_observe _ _)
      rw [← Met.routed met]
      exact List.prefix_rfl
  | @arrived _ id _ offset data fin _ met here _ _ =>
    have hname : named (.streamData id offset data fin) = some id := rfl
    refine queueStep_met met hname ?_ (.trans ?_ (tame_observe _ _))
    · rw [← Met.routed met]
      exact List.prefix_rfl
    · exact tame_setStream here rfl (.inl rfl)
  | failed _ terminal _ below routed losing same =>
    refine .tame (.trans ?_ (tame_fail _ terminal))
    rcases losing with heq | ⟨s, t, here, heq, hpending, hclosed, -⟩
    · rw [same, heq]
      exact tame_of_same ⟨routed, below.calls, rfl, rfl⟩ (fun kind => by cases kind <;> rfl) rfl rfl rfl rfl
    · rw [same, heq]
      refine ⟨fun kind => by cases kind <;> rfl, rfl, ⟨routed, below.calls, rfl, rfl⟩, fun h => h, ?_⟩
      intro id'
      exact rel_insert here (fun _ => ⟨hpending, .inl hclosed⟩) fun s => ⟨rfl, .inl rfl⟩
  | overloaded routed same =>
    refine .tame (.trans ?_ (tame_close _ _ true (.application excessiveLoad)))
    rw [same]
    exact tame_of_same ⟨routed, List.prefix_rfl, rfl, rfl⟩ (fun kind => by cases kind <;> rfl) rfl rfl rfl rfl
  | closed _ =>
    rw [requestClose]
    split
    · exact .tame (tame_of_same (.refl _) (fun _ => rfl) rfl rfl rfl rfl)
    · exact .tame (tame_close c _ c.closeIsFailure _)
  | accepted _ first here => exact .accepted first here
  | panicked first unknown => exact .panicked first unknown
  | openedStream below calls =>
    refine .opened rfl rfl ⟨_, calls.subset (List.mem_append_right _ (List.mem_singleton.mpr rfl))⟩ ?_ rfl
    · exact tame_of_same ⟨List.prefix_rfl, below.calls, rfl, rfl⟩ (fun kind => by cases kind <;> rfl) rfl rfl rfl rfl
  | updated here mild => exact .tame (tame_setStream here mild.pendingAccept mild.lowerClosed)
  | swept mild =>
    refine .tame ⟨fun kind => by cases kind <;> rfl, rfl, grows, fun h => h, ?_⟩
    intro id
    rw [getElem?_mapStreams]
    cases c.streams[id]? with
    | none => exact .none
    | some s => exact .some ⟨(mild id s).pendingAccept, (mild id s).lowerClosed⟩
  | read here _ below =>
    refine .tame (.trans (tame_lower below) ?_)
    exact tame_setStream here rfl (.inl rfl)
  | @readLast id s item rest l here _ _ below =>
    have htaken : Tame c ({ c with lower := l }.setStream id { s with recv := rest }) :=
      (tame_lower below).trans (tame_setStream here rfl (.inl rfl))
    refine .tame (htaken.trans ?_)
    exact tame_setStream setStream_lookup rfl (.inl rfl)
  | discarded here _ below =>
    refine .tame (.trans (tame_lower below) ?_)
    exact tame_setStream here rfl (.inl rfl)
  | dropped here _ => exact .tame (tame_setStream here rfl (.inl rfl))
  | retired here pending lowerClosed _ => exact .retired here pending lowerClosed

/-! ## The queues -/

/-- A stream of the map waits to be accepted. -/
def Awaits (c : Core β ν) (id : StreamId) : Prop :=
  ∃ s, c.streams[id]? = some s ∧ s.pendingAccept = true

structure Queues (c : Core β ν) : Prop where
  nodup : ∀ kind, (c.pending kind).Nodup
  mem : ∀ kind id, id ∈ c.pending kind ↔ acceptKind id = kind ∧ Awaits c id
  limit : (c.pending .uni).length + (c.pending .bidi).length ≤ c.pendingLimit
  peer : ∀ id, Awaits c id → id.initiator ≠ c.localInitiator
  failure : c.closeIsFailure = true → c.terminal.isSome = true

theorem localInitiator_eq (h : d.role = c.role) : d.localInitiator = c.localInitiator := by
  rw [localInitiator, localInitiator, h]

theorem Queues.expected (h : Queues c) : Expected c := by
  constructor
  · intro kind id hid
    obtain ⟨-, s, here, -⟩ := (h.mem kind id).mp hid
    exact ⟨s, here⟩
  · exact h.failure

theorem queues_new (lower : Connection β ν) (limit : ℕ) : Queues (Core.new lower limit) := by
  have hnone (id : StreamId) : ¬ Awaits (Core.new lower limit) id := by
    rintro ⟨s, here, -⟩
    cases (Std.TreeMap.getElem?_emptyc).symm.trans here
  refine ⟨fun kind => ?_, fun kind id => ?_, Nat.zero_le _, fun id h => absurd h (hnone id), nofun⟩
  · cases kind <;> exact List.nodup_nil
  · constructor
    · intro h
      cases kind <;> cases h
    · intro h
      exact absurd h.2 (hnone id)

theorem Tame.awaits (h : Tame c d) (id : StreamId) : Awaits d id ↔ Awaits c id := by
  have hrel := h.streams id
  constructor
  · rintro ⟨t, here, hpending⟩
    rw [here] at hrel
    obtain ⟨s, hs, hst, -⟩ := rel_right hrel
    exact ⟨s, hs, hst ▸ hpending⟩
  · rintro ⟨s, here, hpending⟩
    rw [here] at hrel
    obtain ⟨t, ht, hst, -⟩ := rel_left hrel
    exact ⟨t, ht, hst ▸ hpending⟩

theorem Queues.tame (h : Queues c) (tame : Tame c d) : Queues d := by
  refine ⟨fun kind => ?_, fun kind id => ?_, ?_, fun id hid => ?_, tame.failure h.failure⟩
  · rw [tame.pending]
    exact h.nodup kind
  · rw [tame.pending, tame.awaits]
    exact h.mem kind id
  · rw [tame.pending, tame.pending, tame.grows.limit]
    exact h.limit
  · rw [localInitiator_eq tame.grows.role]
    exact h.peer id ((tame.awaits id).mp hid)

theorem enqueue_pending (c : Core β ν) (id : StreamId) (kind : AcceptKind) :
    (c.enqueue id).pending kind = c.pending kind ++ if acceptKind id = kind then [id] else [] := by
  rw [enqueue]
  cases acceptKind id <;> cases kind <;> simp [Core.pending, wake, setStream]

theorem awaits_enqueue {id' : StreamId} :
    Awaits (c.enqueue id) id' ↔ id = id' ∨ id ≠ id' ∧ Awaits c id' := by
  rw [Awaits, enqueue_streams]
  simp only [Std.TreeMap.getElem?_insert, compare_eq_iff]
  by_cases heq : id = id'
  · simp [heq]
  · simp [heq, Awaits]

theorem Queues.enqueue (h : Queues c) (fresh : Fresh c id) :
    Queues (c.enqueue id) := by
  have hunknown : ¬ Awaits c id := by
    rintro ⟨s, here, -⟩
    rw [fresh.unknown] at here
    cases here
  have hgrows : Grows c (c.enqueue id) := Met.grows (.inr ⟨fresh, rfl⟩)
  refine ⟨fun kind => ?_, fun kind id' => ?_, ?_, fun id' hid => ?_, ?_⟩
  · rw [enqueue_pending]
    split
    · rw [List.nodup_append]
      refine ⟨h.nodup kind, List.nodup_singleton id, ?_⟩
      rintro a ha b hb rfl
      rw [List.mem_singleton] at hb
      subst hb
      exact hunknown ((h.mem kind a).mp ha).2
    · rw [List.append_nil]
      exact h.nodup kind
  · rw [enqueue_pending, List.mem_append, h.mem kind id', awaits_enqueue]
    by_cases heq : id = id'
    · subst heq
      by_cases hkind : acceptKind id = kind <;> simp [hkind, hunknown]
    · have hne : id' ∉ (if acceptKind id = kind then [id] else []) := by
        split
        · rw [List.mem_singleton]
          exact fun h => heq h.symm
        · exact List.not_mem_nil
      simp [heq, hne]
  · rw [enqueue_pending, enqueue_pending, hgrows.limit, List.length_append, List.length_append]
    have hroom : (c.pending .uni).length + (c.pending .bidi).length < c.pendingLimit := fresh.room
    cases acceptKind id <;> simp <;> omega
  · rw [localInitiator_eq hgrows.role]
    rcases awaits_enqueue.mp hid with rfl | ⟨-, hid⟩
    · exact fresh.peer
    · exact h.peer id' hid
  · obtain ⟨_, _, _, _, _, _, heq⟩ := enqueue_same c id
    rw [heq]
    exact h.failure

variable {kind : AcceptKind} {rest : List StreamId}

theorem popPending_pending
    (first : c.pending kind = id :: rest) (kind' : AcceptKind) :
    c.pending kind' = (if kind' = kind then [id] else []) ++ (popPending c kind rest).pending kind' := by
  cases kind <;> cases kind' <;> first | exact first | rfl

theorem popPending_streams (c : Core β ν) (kind : AcceptKind) (rest : List StreamId) :
    (popPending c kind rest).streams = c.streams := by
  cases kind <;> rfl

theorem Queues.accept
    (h : Queues c) (first : c.pending kind = id :: rest) :
    Queues { (popPending c kind rest).setStream id (s.accept kind) with accepted := c.accepted ++ [id] } := by
  have hhead : acceptKind id = kind ∧ Awaits c id := (h.mem kind id).mp (by rw [first]; exact List.mem_cons_self)
  have hpending (kind' : AcceptKind) : Core.pending
      { (popPending c kind rest).setStream id (s.accept kind) with accepted := c.accepted ++ [id] } kind' =
      (popPending c kind rest).pending kind' := by
    cases kind' <;> rfl
  have hawaits (id' : StreamId) : Awaits
      { (popPending c kind rest).setStream id (s.accept kind) with accepted := c.accepted ++ [id] } id' ↔
      id ≠ id' ∧ Awaits c id' := by
    show (∃ t, ((popPending c kind rest).setStream id (s.accept kind)).streams[id']? = some t ∧ _) ↔ _
    rw [getElem?_setStream, popPending_streams]
    by_cases heq : id = id'
    · simp [heq, StreamState.accept]
    · simp [heq, Awaits]
  have hgrows := popPending_grows (c := c) kind rest
  refine ⟨fun kind' => ?_, fun kind' id' => ?_, ?_, fun id' hid => ?_, ?_⟩
  · have hnodup := h.nodup kind'
    rw [popPending_pending first kind'] at hnodup
    rw [hpending]
    exact hnodup.of_append_right
  · have hmem := h.mem kind' id'
    have hnodup := h.nodup kind'
    rw [popPending_pending first kind', List.mem_append] at hmem
    rw [popPending_pending first kind'] at hnodup
    rw [hpending, hawaits]
    by_cases heq : id = id'
    · subst heq
      refine ⟨fun hid => ?_, fun hid => absurd rfl hid.2.1⟩
      have hkind : kind = kind' := by
        rw [← hhead.1]
        exact (hmem.mp (.inr hid)).1
      subst hkind
      rw [if_pos rfl] at hnodup
      exact absurd hid (List.nodup_cons.mp hnodup).1
    · have hne : id' ∉ (if kind' = kind then [id] else []) := by
        split
        · rw [List.mem_singleton]
          exact fun h => heq h.symm
        · exact List.not_mem_nil
      simpa [heq, hne] using hmem
  · have hlimit := h.limit
    rw [popPending_pending first .uni, popPending_pending first .bidi, List.length_append,
      List.length_append] at hlimit
    rw [hpending, hpending]
    have : (popPending c kind rest).pendingLimit = c.pendingLimit := hgrows.limit
    show _ ≤ (popPending c kind rest).pendingLimit
    omega
  · rw [localInitiator_eq (c := c) (d := { (popPending c kind rest).setStream id (s.accept kind) with
      accepted := c.accepted ++ [id] }) hgrows.role]
    exact h.peer id' ((hawaits id').mp hid).2
  · cases kind <;> exact h.failure

theorem Queues.open (h : Queues c)
    (new : s.pendingAccept = false) (here : id.initiator = d.localInitiator)
    (tame : Tame c { d with streams := c.streams }) (streams : d.streams = c.streams.insert id s) : Queues d := by
  have hd := h.tame tame
  have hawaits (id' : StreamId) : Awaits d id' ↔ Awaits { d with streams := c.streams } id' := by
    rw [Awaits, Awaits, streams]
    show (∃ t, (c.streams.insert id s)[id']? = some t ∧ _) ↔ ∃ t, c.streams[id']? = some t ∧ _
    rw [Std.TreeMap.getElem?_insert]
    split
    · rename_i heq
      obtain rfl := compare_eq_iff.mp heq
      -- a stream that this side opened is in no queue
      constructor
      · rintro ⟨t, ht, hpending⟩
        cases ht
        rw [new] at hpending
        cases hpending
      · intro hid
        exact absurd here (hd.peer id hid)
    · exact Iff.rfl
  refine ⟨fun kind => ?_, fun kind id' => ?_, ?_, fun id' hid => ?_, hd.failure⟩
  · cases kind
    · exact hd.nodup .uni
    · exact hd.nodup .bidi
  · rw [hawaits]
    cases kind
    · exact hd.mem .uni id'
    · exact hd.mem .bidi id'
  · exact hd.limit
  · exact hd.peer id' ((hawaits id').mp hid)

theorem Queues.retire (h : Queues c)
    (here : c.streams[id]? = some s) (pending : s.pendingAccept = false) :
    Queues { c with streams := c.streams.erase id } := by
  have hawaits (id' : StreamId) : Awaits { c with streams := c.streams.erase id } id' ↔ Awaits c id' := by
    show (∃ t, (c.streams.erase id)[id']? = some t ∧ _) ↔ ∃ t, c.streams[id']? = some t ∧ _
    rw [Std.TreeMap.getElem?_erase]
    split
    · rename_i heq
      obtain rfl := compare_eq_iff.mp heq
      simp [here, pending]
    · exact Iff.rfl
  refine ⟨fun kind => ?_, fun kind id' => ?_, h.limit, fun id' hid => h.peer id' ((hawaits id').mp hid), h.failure⟩
  · cases kind
    · exact h.nodup .uni
    · exact h.nodup .bidi
  · rw [hawaits]
    cases kind
    · exact h.mem .uni id'
    · exact h.mem .bidi id'

/-- The native library opens streams of its own side. -/
def OpensLocal (c : Core β ν) : Prop :=
  ∀ kind id, .openStream kind (.ok (.opened id)) ∈ c.lower.conn.calls → id.initiator = c.localInitiator

theorem OpensLocal.past (h : Grows c d) (hd : OpensLocal d) : OpensLocal c := by
  intro kind id hcall
  rw [← localInitiator_eq h.role]
  exact hd kind id (h.calls.subset hcall)

theorem Queues.step (h : QueueStep c d) (opens : OpensLocal d) (hc : Queues c) : Queues d := by
  cases h with
  | tame tame => exact hc.tame tame
  | discovered fresh _ _ tame => exact (hc.enqueue fresh).tame tame
  | accepted first _ => exact hc.accept first
  | panicked first unknown =>
    obtain ⟨s, here⟩ := hc.expected.queued _ _ (by rw [first]; exact List.mem_cons_self)
    rw [unknown] at here
    cases here
  | opened new _ call tame streams =>
    obtain ⟨kind, hcall⟩ := call
    exact hc.open new (opens kind _ hcall) tame streams
  | retired here pending _ => exact hc.retire here pending

/-! ## Handing a stream out -/

/-- The layer below says nothing about a stream after its close. -/
def NothingAfterClose (routed : List Event) : Prop :=
  ∀ before event after id, routed = before ++ event :: after → named event = some id → ¬ Closed before id

theorem NothingAfterClose.past {routed routed' : List Event} (h : routed <+: routed')
    (h' : NothingAfterClose routed') : NothingAfterClose routed := by
  obtain ⟨more, rfl⟩ := h
  rintro before event after id rfl
  exact h' before event (after ++ more) id (by simp)

structure Handed (c : Core β ν) : Prop where
  nodup : c.accepted.Nodup
  gone : ∀ id ∈ c.accepted, ¬ Awaits c id
  peer : ∀ id ∈ c.accepted, id.initiator ≠ c.localInitiator
  kept : ∀ id ∈ c.accepted, (∃ s, c.streams[id]? = some s) ∨ Closed c.routed id
  closed : ∀ id s, c.streams[id]? = some s → s.lowerClosed = true → Closed c.routed id

theorem handed_new (lower : Connection β ν) (limit : ℕ) : Handed (Core.new lower limit) := by
  refine ⟨List.nodup_nil, nofun, nofun, nofun, ?_⟩
  intro id s here
  cases (Std.TreeMap.getElem?_emptyc).symm.trans here

theorem Handed.tame (h : Handed c) (tame : Tame c d) : Handed d := by
  refine ⟨?_, fun id hid => ?_, fun id hid => ?_, fun id hid => ?_, fun id t ht hclosed => ?_⟩
  · rw [tame.accepted]
    exact h.nodup
  · rw [tame.accepted] at hid
    rw [tame.awaits]
    exact h.gone id hid
  · rw [tame.accepted] at hid
    rw [localInitiator_eq tame.grows.role]
    exact h.peer id hid
  · rw [tame.accepted] at hid
    rcases h.kept id hid with ⟨s, here⟩ | hclosed
    · have hrel := tame.streams id
      rw [here] at hrel
      obtain ⟨t, ht, -⟩ := rel_left hrel
      exact .inl ⟨t, ht⟩
    · exact .inr (closed_mono tame.grows.routed hclosed)
  · have hrel := tame.streams id
    rw [ht] at hrel
    obtain ⟨s, here, -, heq | hnow⟩ := rel_right hrel
    · exact closed_mono tame.grows.routed (h.closed id s here (heq ▸ hclosed))
    · exact hnow

theorem Handed.enqueue (h : Handed c) (fresh : Fresh c id)
    (new : ¬ Closed c.routed id) : Handed (c.enqueue id) := by
  have hnot : id ∉ c.accepted := by
    intro hid
    rcases h.kept id hid with ⟨s, here⟩ | hclosed
    · rw [fresh.unknown] at here
      cases here
    · exact new hclosed
  have hstreams : (c.enqueue id).streams = _ := enqueue_streams
  have hawaits (id' : StreamId) : Awaits (c.enqueue id) id' ↔ _ := awaits_enqueue
  obtain ⟨_, _, _, _, _, _, heq⟩ := enqueue_same c id
  rw [heq] at hstreams hawaits ⊢
  refine ⟨h.nodup, fun id' hid => ?_, h.peer, fun id' hid => ?_, fun id' t ht hclosed => ?_⟩
  · rw [hawaits]
    rintro (rfl | ⟨-, hawait⟩)
    · exact hnot hid
    · exact h.gone id' hid hawait
  · rcases h.kept id' hid with ⟨s, here⟩ | hclosed
    · refine .inl ⟨s, ?_⟩
      show _ = some s
      rw [hstreams, Std.TreeMap.getElem?_insert, if_neg ?_]
      · exact here
      · rw [compare_eq_iff]
        rintro rfl
        exact hnot hid
    · exact .inr hclosed
  · change _ = some t at ht
    rw [hstreams, Std.TreeMap.getElem?_insert] at ht
    split at ht
    · cases ht
      cases hclosed
    · exact h.closed id' t ht hclosed

theorem Handed.accept
    (h : Handed c) (hq : Queues c) (first : c.pending kind = id :: rest)
    (here : c.streams[id]? = some s) :
    Handed { (popPending c kind rest).setStream id (s.accept kind) with accepted := c.accepted ++ [id] } := by
  have hhead : Awaits c id := ((hq.mem kind id).mp (by rw [first]; exact List.mem_cons_self)).2
  have hlookup (id' : StreamId) : ({ (popPending c kind rest).setStream id (s.accept kind) with
      accepted := c.accepted ++ [id] } : Core β ν).streams[id']? =
      if id = id' then some (s.accept kind) else c.streams[id']? := by
    show ((popPending c kind rest).setStream id (s.accept kind)).streams[id']? = _
    rw [getElem?_setStream, popPending_streams]
  have hrouted : (popPending c kind rest).routed = c.routed := by cases kind <;> rfl
  have hrole : (popPending c kind rest).localInitiator = c.localInitiator := by cases kind <;> rfl
  refine ⟨?_, fun id' hid => ?_, fun id' hid => ?_, fun id' hid => ?_, fun id' t ht hclosed => ?_⟩
  · refine List.nodup_append.mpr ⟨h.nodup, List.nodup_singleton id, ?_⟩
    rintro a ha b hb rfl
    rw [List.mem_singleton] at hb
    subst hb
    exact h.gone a ha hhead
  · rintro ⟨t, ht, hpending⟩
    rw [hlookup] at ht
    split at ht
    · cases ht
      cases hpending
    · rename_i hne
      rcases List.mem_append.mp hid with hid | hid
      · exact h.gone id' hid ⟨t, ht, hpending⟩
      · exact hne (List.mem_singleton.mp hid).symm
  · show id'.initiator ≠ (popPending c kind rest).localInitiator
    rw [hrole]
    rcases List.mem_append.mp hid with hid | hid
    · exact h.peer id' hid
    · rw [List.mem_singleton.mp hid]
      exact hq.peer id hhead
  · rw [hlookup]
    show _ ∨ Closed (popPending c kind rest).routed id'
    rw [hrouted]
    split
    · exact .inl ⟨_, rfl⟩
    · rename_i hne
      rcases List.mem_append.mp hid with hid | hid
      · exact h.kept id' hid
      · exact absurd (List.mem_singleton.mp hid).symm hne
  · show Closed (popPending c kind rest).routed id'
    rw [hrouted]
    rw [hlookup] at ht
    split at ht
    · rename_i heq
      subst heq
      cases ht
      exact h.closed id s here hclosed
    · exact h.closed id' t ht hclosed

theorem Handed.open (h : Handed c)
    (new : s.pendingAccept = false) (closed : s.lowerClosed = false)
    (tame : Tame c { d with streams := c.streams }) (streams : d.streams = c.streams.insert id s) :
    Handed d := by
  have hd := h.tame tame
  have hlookup (id' : StreamId) : d.streams[id']? = if id = id' then some s else c.streams[id']? := by
    rw [streams, Std.TreeMap.getElem?_insert]
    simp only [compare_eq_iff]
  refine ⟨hd.nodup, fun id' hid => ?_, hd.peer, fun id' hid => ?_, fun id' t ht hclosed => ?_⟩
  · rintro ⟨t, ht, hpending⟩
    rw [hlookup] at ht
    split at ht
    · cases ht
      rw [new] at hpending
      cases hpending
    · exact hd.gone id' hid ⟨t, ht, hpending⟩
  · rw [hlookup]
    split
    · exact .inl ⟨s, rfl⟩
    · exact hd.kept id' hid
  · rw [hlookup] at ht
    split at ht
    · cases ht
      rw [closed] at hclosed
      cases hclosed
    · exact hd.closed id' t ht hclosed

theorem Handed.retire (h : Handed c)
    (here : c.streams[id]? = some s) (lowerClosed : s.lowerClosed = true) :
    Handed { c with streams := c.streams.erase id } := by
  have hlookup (id' : StreamId) : (c.streams.erase id)[id']? = if id = id' then none else c.streams[id']? := by
    rw [Std.TreeMap.getElem?_erase]
    simp only [compare_eq_iff]
  refine ⟨h.nodup, fun id' hid => ?_, h.peer, fun id' hid => ?_, fun id' t ht hclosed => ?_⟩
  · rintro ⟨t, ht, hpending⟩
    change (c.streams.erase id)[id']? = _ at ht
    rw [hlookup] at ht
    split at ht
    · cases ht
    · exact h.gone id' hid ⟨t, ht, hpending⟩
  · show (∃ t, (c.streams.erase id)[id']? = some t) ∨ _
    rw [hlookup]
    split
    · rename_i heq
      subst heq
      exact .inr (h.closed id s here lowerClosed)
    · exact h.kept id' hid
  · change (c.streams.erase id)[id']? = _ at ht
    rw [hlookup] at ht
    split at ht
    · cases ht
    · exact h.closed id' t ht hclosed

theorem Handed.step (h : QueueStep c d) (quiet : NothingAfterClose d.routed)
    (hq : Queues c) (hc : Handed c) : Handed d := by
  cases h with
  | tame tame => exact hc.tame tame
  | discovered fresh name routed tame =>
    refine (hc.enqueue fresh ?_).tame tame
    exact (quiet.past routed) c.routed _ [] _ rfl name
  | accepted first here => exact hc.accept hq first here
  | panicked first unknown =>
    obtain ⟨s, here⟩ := hq.expected.queued _ _ (by rw [first]; exact List.mem_cons_self)
    rw [unknown] at here
    cases here
  | opened new closed _ tame streams => exact hc.open new closed tame streams
  | retired here _ lowerClosed => exact hc.retire here lowerClosed

/-! ## Runs -/

/-- The stream that an answer hands out, where the section is an accept. -/
def handed : Section → Except (Halt Panic) SectionResult → List StreamId
  | .accept _ _, .ok (.stream (.ok (some id))) => [id]
  | _, _ => []

/-- The streams handed out by the accepts of a run. -/
def handedOut (secs : List Section) (answers : List (Except (Halt Panic) SectionResult)) : List StreamId :=
  ((secs.zip answers).map fun entry => handed entry.1 entry.2).flatten

theorem accepted_of_step {sec : Section} (h : CoreStep sec c d)
    (other : ∀ kind waker, sec ≠ .accept kind waker) : d.accepted = c.accepted := by
  cases h with
  | observed _ met =>
    rcases met with rfl | ⟨id, -, rfl | ⟨-, rfl⟩⟩
    · rfl
    · rfl
    · obtain ⟨_, _, _, _, _, _, heq⟩ := enqueue_same c id
      rw [heq]
      rfl
  | @arrived _ id _ _ _ _ _ met _ _ _ =>
    rcases met with rfl | ⟨-, rfl⟩
    · rfl
    · obtain ⟨_, _, _, _, _, _, heq⟩ := enqueue_same c id
      rw [heq]
      rfl
  | failed _ terminal _ _ _ _ same =>
    rw [fail_accepted, same]
  | overloaded _ same =>
    rw [overload, fail_accepted, same]
  | closed _ =>
    rw [requestClose]
    split
    · rfl
    · rw [fail_accepted]
  | @accepted kind _ _ _ asked _ _ =>
    obtain ⟨waker, rfl⟩ := asked
    exact absurd rfl (other kind waker)
  | @panicked kind _ _ _ _ => cases kind <;> rfl
  | _ => rfl

section Runs
variable [Dwnx ν] [AsyncByteStream β]

theorem accepted_step (fuel : ℕ) (sec : Section) (c : Core β ν) :
    (sec.step fuel c).2.accepted = c.accepted ++ handed sec (sec.step fuel c).1 := by
  by_cases hsec : ∃ kind waker, sec = .accept kind waker
  · obtain ⟨kind, waker, rfl⟩ := hsec
    have hrun : Ensures (accept kind waker) { c with effects := {} } (fun r d => d.accepted = c.accepted ++
        handed (.accept kind waker) (.ok (.stream r))) fun _ d => d.accepted = c.accepted := by
      rw [accept, ensures_get]
      dsimp only
      cases c.terminal with
      | some terminal =>
        rw [ensures_pure]
        simp [handed]
      | none =>
        dsimp only
        split
        rotate_left
        · rw [ensures_bind, ensures_of_ok set_apply, ensures_pure]
          cases kind <;> simp only [parkAccept, handed, List.append_nil] <;> split <;> rfl
        · rename_i id rest hpending
          cases c.streams[id]? with
          | none =>
            rw [ensures_bind, ensures_of_ok set_apply, ensures_fail]
            cases kind <;> rfl
          | some s =>
            rw [ensures_bind, ensures_of_ok set_apply, ensures_pure]
            rfl
    have hmapped : Ensures ((Section.accept kind waker).program fuel) { c with effects := {} }
        (fun r d => d.accepted = c.accepted ++ handed (.accept kind waker) (.ok r))
        fun _ d => d.accepted = c.accepted :=
      ensures_bind.mpr (Ensures.mono hrun (fun _ _ h => ensures_pure.mpr h) fun _ _ h => h)
    rw [Section.step, outcome]
    rcases hmapped.cases with ⟨r, d, hm, h⟩ | ⟨e, d, hm, h⟩
    · rw [hm]
      exact h
    · rw [hm]
      simpa [handed] using h
  · have hother : ∀ kind waker, sec ≠ .accept kind waker := fun kind waker heq => hsec ⟨kind, waker, heq⟩
    have hsame : (sec.step fuel c).2.accepted = c.accepted :=
      invariant_of_steps (I := fun d : Core β ν => d.accepted = c.accepted)
        (fun _ _ hstep hd => (accepted_of_step hstep hother).trans hd) (step_steps fuel sec c).1 rfl
    have hnone : handed sec (sec.step fuel c).1 = [] := by
      cases sec with
      | accept kind waker => exact absurd rfl (hother kind waker)
      | _ => rfl
    rw [hsame, hnone, List.append_nil]

theorem accepted_run (fuel : ℕ) (secs : List Section) : ∀ c : Core β ν,
    (run (Section.step fuel) secs c).2.accepted =
      c.accepted ++ handedOut secs (run (Section.step fuel) secs c).1 := by
  induction secs with
  | nil => intro c; simp [run, handedOut]
  | cons sec rest ih =>
    intro c
    show (run (Section.step fuel) rest (sec.step fuel c).2).2.accepted = _
    rw [ih, accepted_step, List.append_assoc]
    rfl

/-- The accept queues over every run of critical sections: they hold exactly the streams that wait
to be accepted, by directionality and each once, never more than the limit, and no `expect` fails;
a stream is handed out once if nothing is said about it after its close. -/
theorem acceptQueues (lower : Connection β ν) (limit fuel : ℕ) (secs : List Section)
    (opens : OpensLocal (run (Section.step fuel) secs (Core.new lower limit)).2) :
    let r := run (Section.step fuel) secs (Core.new lower limit)
    let c := r.2
    c.pendingUni.Nodup ∧ c.pendingBidi.Nodup ∧ c.pendingUni.Disjoint c.pendingBidi ∧
    (∀ id, id ∈ c.pendingUni ↔ id.directionality = .unidirectional ∧
      ∃ s, c.streams[id]? = some s ∧ s.pendingAccept = true) ∧
    (∀ id, id ∈ c.pendingBidi ↔ id.directionality = .bidirectional ∧
      ∃ s, c.streams[id]? = some s ∧ s.pendingAccept = true) ∧
    c.pendingUni.length + c.pendingBidi.length ≤ limit ∧
    (∀ id ∈ c.pendingUni ++ c.pendingBidi, c.streams.contains id = true) ∧
    (∀ answer ∈ r.1, ∀ message, answer ≠ .error (.failed message)) ∧
    (NothingAfterClose c.routed → (handedOut secs r.1).Nodup) := by
  have hstep (sec : Section) (c d : Core β ν) (h : CoreStep sec c d) (hopens : OpensLocal d)
      (hc : Queues c ∧ (NothingAfterClose c.routed → Handed c)) :
      Queues d ∧ (NothingAfterClose d.routed → Handed d) := by
    refine ⟨hc.1.step (queueStep_of_step h) hopens, fun hquiet => ?_⟩
    exact (hc.2 (hquiet.past (step_grows h).routed)).step (queueStep_of_step h) hquiet hc.1
  have hstart : Queues (Core.new lower limit) ∧
      (NothingAfterClose (Core.new lower limit).routed → Handed (Core.new lower limit)) :=
    ⟨queues_new lower limit, fun _ => handed_new lower limit⟩
  have hpast (c d : Core β ν) : Grows c d → OpensLocal d → OpensLocal c := OpensLocal.past
  obtain ⟨hq, hhanded⟩ := run_keeps hpast hstep fuel secs _ hstart opens
  have hpanic := run_expects hpast hstep (fun c hc => hc.1.expected) fuel secs _ hstart opens
  have haccepted := accepted_run fuel secs (Core.new lower limit)
  have hlimit := (run_grows fuel secs (Core.new lower limit)).limit
  have hkind (id : StreamId) : (acceptKind id = .uni ↔ id.directionality = .unidirectional) ∧
      (acceptKind id = .bidi ↔ id.directionality = .bidirectional) := by
    rw [acceptKind.eq_def]
    cases id.directionality <;> simp
  generalize run (Section.step fuel) secs (Core.new lower limit) = r at *
  obtain ⟨answers, c⟩ := r
  refine ⟨hq.nodup .uni, hq.nodup .bidi, ?_, fun id => ?_, fun id => ?_, ?_, fun id hid => ?_, hpanic, fun hquiet => ?_⟩
  · intro id huni hbidi
    cases ((hq.mem .uni id).mp huni).1.symm.trans ((hq.mem .bidi id).mp hbidi).1
  · rw [← (hkind id).1]
    exact hq.mem .uni id
  · rw [← (hkind id).2]
    exact hq.mem .bidi id
  · have h := hq.limit
    rw [show c.pendingLimit = limit from hlimit] at h
    exact h
  · rw [contains_iff]
    rcases List.mem_append.mp hid with hid | hid
    · exact hq.expected.queued .uni id hid
    · exact hq.expected.queued .bidi id hid
  · have hnodup := (hhanded hquiet).nodup
    rw [show c.accepted = [] ++ handedOut secs answers from haccepted] at hnodup
    exact hnodup

end Runs

/-- A peer stream discovered by data, one by its opening and a stream of this side; the first is
closed before it is accepted. -/
theorem acceptQueues_data_first :
    let secs : List Section := [.route (.streamData ⟨1, by decide⟩ 0 [7] true), .route (.streamOpened ⟨3, by decide⟩),
      .route (.streamClosed ⟨1, by decide⟩ none none), .openStream 0 .bidi 5, .accept .bidi 5]
    let lower : Connection ScriptedStream ScriptedDwnx :=
      .new {} { opens := [.opened ⟨0, by decide⟩] } .client 100
    let r := run (Section.step 1) secs (Core.new lower 2)
    r.2.pendingUni = [⟨3, by decide⟩] ∧ handedOut secs r.1 = [⟨1, by decide⟩] ∧
      (handedOut secs r.1).Nodup ∧ r.2.pendingUni.length + r.2.pendingBidi.length ≤ 2 := by
  intro secs lower r
  have hrouted : (run (Section.step 1) secs (Core.new lower 2)).2.routed =
      [.streamData ⟨1, by decide⟩ 0 [7] true, .streamOpened ⟨3, by decide⟩,
        .streamClosed ⟨1, by decide⟩ none none] := by decide +kernel
  have hopened : openedIds (run (Section.step 1) secs (Core.new lower 2)).2.lower.conn.calls =
      [⟨0, by decide⟩] := by decide +kernel
  have hlocal : (run (Section.step 1) secs (Core.new lower 2)).2.localInitiator = .client := by decide +kernel
  have hopens : OpensLocal (run (Section.step 1) secs (Core.new lower 2)).2 := by
    intro kind id hcall
    have hid : id ∈ openedIds (run (Section.step 1) secs (Core.new lower 2)).2.lower.conn.calls :=
      List.mem_filterMap.mpr ⟨_, hcall, rfl⟩
    rw [hopened, List.mem_singleton] at hid
    rw [hlocal, hid]
    decide
  have hqueues := acceptQueues lower 2 1 secs hopens
  dsimp only at hqueues
  obtain ⟨-, -, -, -, -, hlimit, -, -, hnodup⟩ := hqueues
  refine ⟨by decide +kernel, by decide +kernel, hnodup ?_, hlimit⟩
  rw [hrouted]
  rintro before event after id hsplit - ⟨closing, hclosing, hcloses⟩
  -- the only close is the last event
  rcases before with _ | ⟨first, _ | ⟨second, _ | ⟨third, more⟩⟩⟩ <;> simp at hsplit hclosing
  · subst hclosing
    rw [← hsplit.1] at hcloses
    exact hcloses
  · rcases hclosing with rfl | rfl
    · rw [← hsplit.1] at hcloses
      exact hcloses
    · rw [← hsplit.2.1] at hcloses
      exact hcloses

end Ngnet.HyperiumAcceptQueues
