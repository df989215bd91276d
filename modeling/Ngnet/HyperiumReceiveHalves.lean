import Ngnet.HyperiumSteps

/-!
# The receive half of one stream

What a reader of a stream has before it is a queue, the ending that stands behind the queue, and
whether the peer was told to stop. Events reach a half only through `route`; every section of
another stream, of a send half or of the connection leaves it alone. `HalfStep` lists what can
happen to the half of one stream in the sections that do not read it or give it up.
-/

namespace Ngnet.HyperiumReceiveHalves
open QmuxVarints QmuxCloseCodec QmuxErrors QmuxStreams StatefulPrograms QmuxRecordWriter
open QmuxConnection HyperiumCore Core HyperiumHandles HyperiumSteps Relation

variable {β ν : Type}

/-! ## Halves -/

/-- The receive half of a stream. It is expected while the stream waits to be accepted or has a
receive handle. -/
structure Half where
  queue : List Received := []
  ending : Option DirectionTerminal := none
  shut : Bool := false
  expected : Bool := true
  deriving DecidableEq

def receiveHalf (s : StreamState) : Half := ⟨s.recv, s.recvTerminal, s.recvShutdownSent, s.pendingAccept || s.recvHandle⟩

def half (c : Core β ν) (id : StreamId) : Option Half := c.streams[id]?.map receiveHalf

/-- What is queued for the reader of a stream. -/
def queued (c : Core β ν) (id : StreamId) : List Received := ((half c id).map Half.queue).getD []

namespace Half

/-- Bytes and a FIN reach the half. -/
def take (h : Half) (data : Bytes) (fin : Bool) : Half :=
  if h.shut then h
  else if data ≠ [] then { h with queue := h.queue ++ [⟨data, fin⟩] }
  else if fin && h.ending.isNone then { h with ending := some .finished }
  else h

def endWith (h : Half) (ending : DirectionTerminal) : Half := { h with ending := h.ending.or (some ending) }

/-- What an event does to the half of the stream. -/
def hear (id : StreamId) (h : Half) : Event → Half
  | .streamData id' _ data fin => if id' = id then h.take data fin else h
  | .streamClosed id' rx _ => if id' = id then h.endWith (closedWith rx) else h
  | .streamReset id' _ code => if id' = id then h.endWith (.reset code) else h
  | _ => h

end Half

/-- The stream that an event makes known. -/
def discovered : Event → Option StreamId
  | .streamData id _ _ _ | .streamOpened id => some id
  | _ => none

/-- What an event does to the half of a stream that may be unknown. -/
def hearing (id : StreamId) (event : Event) : Option Half → Option Half
  | some h => some (h.hear id event)
  | none => if discovered event = some id then some (({} : Half).hear id event) else none

/-- The event carries bytes or a FIN of the stream. -/
def carries (id : StreamId) : Event → Prop
  | .streamData id' _ _ _ => id' = id
  | _ => False

/-- The connection ended over what the peer sent, and not below. -/
def Refused (c : Core β ν) : Prop :=
  ∃ t, c.terminal = some t ∧ (c.closeIsFailure = true ∨ ∃ message, t = .internal message)

/-- The first ending is kept, and the marking of a close with it. -/
def EndsOnce (c d : Core β ν) : Prop :=
  d.terminal = c.terminal ∧ d.closeIsFailure = c.closeIsFailure ∨ c.terminal = none ∧ d.terminal.isSome = true

inductive HalfStep (id : StreamId) : Core β ν → Core β ν → Prop
  | quiet {c d : Core β ν} (routed : d.routed = c.routed) (role : d.role = c.role)
      (ends : EndsOnce c d) (same : half d id = half c id) : HalfStep id c d
  | heard {c d : Core β ν} (event : Event) (live : c.terminal = none)
      (routed : d.routed = c.routed ++ [event]) (role : d.role = c.role)
      (heard : Refused d ∨ (carries id event → c.receiveDirectionValid id = true) ∧
        half d id = hearing id event (half c id)) : HalfStep id c d
  | accepted {c d : Core β ν} {h : Half} (routed : d.routed = c.routed) (role : d.role = c.role)
      (ends : EndsOnce c d) (here : half c id = some h)
      (handed : half d id = some { h with expected := true }) : HalfStep id c d
  | opened {c d : Core β ν} (expected : Bool) (routed : d.routed = c.routed) (role : d.role = c.role)
      (ends : EndsOnce c d) (unknown : half c id = none) (fresh : half d id = some { expected })
      (sends : expected = false → c.receiveDirectionValid id = false) : HalfStep id c d
  | retired {c d : Core β ν} {h : Half} (routed : d.routed = c.routed) (role : d.role = c.role)
      (ends : EndsOnce c d) (here : half c id = some h) (unexpected : h.expected = false)
      (drained : h.queue = []) (gone : half d id = none) : HalfStep id c d

/-! ## What leaves a half alone -/

section Quiet
variable {c d : Core β ν} {id id' : StreamId}

@[simp] theorem half_setStream (s : StreamState) :
    half (c.setStream id' s) id = if id' = id then some (receiveHalf s) else half c id := by
  rw [half, half, getElem?_setStream]
  split <;> rfl

theorem half_of_lookup {s : StreamState} (here : c.streams[id]? = some s) : half c id = some (receiveHalf s) := by
  rw [half, here]
  rfl

theorem EndsOnce.refl (c : Core β ν) : EndsOnce c c := .inl ⟨rfl, rfl⟩

theorem quiet_of_streams (streams : d.streams = c.streams) (routed : d.routed = c.routed)
    (role : d.role = c.role) (ends : EndsOnce c d) : ReflTransGen (HalfStep id) c d := by
  apply ReflTransGen.single
  apply HalfStep.quiet routed role ends
  rw [half, half, streams]

theorem wake_quiet (wakes : List Waker) : ReflTransGen (HalfStep id) c (c.wake wakes) :=
  quiet_of_streams rfl rfl rfl (.refl c)

theorem goOn_quiet : ReflTransGen (HalfStep id) c c.goOn := quiet_of_streams rfl rfl rfl (.refl c)

theorem goOn_if_quiet (h : ReflTransGen (HalfStep id) c d) (new : Bool) :
    ReflTransGen (HalfStep id) c (if new then d.goOn else d) := by
  cases new with
  | false => exact h
  | true => exact h.trans goOn_quiet

theorem setStream_quiet {s t : StreamState} (here : c.streams[id']? = some s)
    (same : id' ≠ id ∨ receiveHalf t = receiveHalf s) : ReflTransGen (HalfStep id) c (c.setStream id' t) := by
  apply ReflTransGen.single
  refine .quiet rfl rfl (.refl c) ?_
  rw [half_setStream]
  split
  · rename_i heq
    subst heq
    rcases same with hne | hsame
    · exact absurd rfl hne
    · rw [half_of_lookup here, hsame]
  · rfl

theorem updateStream_quiet {f : StreamState → StreamState × List Waker}
    (same : id' ≠ id ∨ ∀ s, receiveHalf (f s).1 = receiveHalf s) :
    ReflTransGen (HalfStep id) c (c.updateStream id' f) := by
  rw [updateStream]
  cases here : c.streams[id']? with
  | none => exact .refl
  | some s =>
    apply ReflTransGen.trans _ (wake_quiet _)
    exact setStream_quiet here (same.imp_right fun h => h s)

theorem mapStreams_quiet {f : StreamState → StreamState} (same : ∀ s, receiveHalf (f s) = receiveHalf s) :
    ReflTransGen (HalfStep id) c (c.mapStreams f) := by
  apply ReflTransGen.single
  refine .quiet rfl rfl (.refl c) ?_
  rw [half, half, getElem?_mapStreams, Option.map_map]
  congr 1
  funext s
  exact same s

theorem endsOnce_fail (c : Core β ν) (terminal : ConnectionTerminal) : EndsOnce c (c.fail terminal) := by
  cases hterminal : c.terminal with
  | none =>
    right
    exact ⟨hterminal, by rw [fail_terminal]; rfl⟩
  | some first =>
    left
    rw [fail_terminal, fail_closeIsFailure, hterminal]
    exact ⟨rfl, rfl⟩

theorem half_fail (c : Core β ν) (terminal : ConnectionTerminal) : half (c.fail terminal) id = half c id := by
  rw [half, half, fail_lookup, Option.map_map]
  congr 1
  funext s
  simp only [Function.comp_apply]
  split <;> rfl

theorem fail_quiet (terminal : ConnectionTerminal) : ReflTransGen (HalfStep id) c (c.fail terminal) := by
  apply ReflTransGen.single
  apply HalfStep.quiet
  · exact fail_routed c terminal
  · exact fail_role c terminal
  · exact endsOnce_fail c terminal
  · exact half_fail c terminal

theorem requestClose_quiet (code : ℕ) (reason : Bytes) :
    ReflTransGen (HalfStep id) c (c.requestClose code reason) := by
  rw [requestClose]
  split
  · exact .refl
  · apply ReflTransGen.trans _ (fail_quiet _)
    exact quiet_of_streams rfl rfl rfl (.inl ⟨rfl, rfl⟩)

theorem cleanup_quiet : ReflTransGen (HalfStep id) c (c.cleanup id') := by
  rw [cleanup]
  cases here : c.streams[id']? with
  | none => exact .refl
  | some s =>
    dsimp only
    split
    · rename_i h
      simp only [Bool.and_eq_true, Bool.not_eq_true', List.isEmpty_iff] at h
      apply ReflTransGen.single
      have hlookup : half { c with streams := c.streams.erase id' } id =
          if id' = id then none else half c id := by
        simp only [half, Std.TreeMap.getElem?_erase, compare_eq_iff]
        split <;> rfl
      by_cases heq : id' = id
      · subst heq
        rw [if_pos rfl] at hlookup
        refine .retired rfl rfl (.refl c) (half_of_lookup here) ?_ h.2 hlookup
        simp [receiveHalf, h]
      · rw [if_neg heq] at hlookup
        exact .quiet rfl rfl (.refl c) hlookup
    · exact .refl

theorem wakeAllSenders_quiet : ReflTransGen (HalfStep id) c c.wakeAllSenders := by
  apply ReflTransGen.trans _ (wake_quiet _)
  exact mapStreams_quiet fun _ => rfl

theorem wakeOutputSenders_quiet : ReflTransGen (HalfStep id) c c.wakeOutputSenders := by
  apply ReflTransGen.trans _ (wake_quiet _)
  exact mapStreams_quiet fun _ => rfl

theorem wakeOpeners_quiet (kind : OpenKind) : ReflTransGen (HalfStep id) c (c.wakeOpeners kind) := by
  cases kind <;> exact quiet_of_streams rfl rfl rfl (.refl c)

theorem parkSend_quiet (finish waitingOutput : Bool) (waker : Waker) :
    ReflTransGen (HalfStep id) c (c.parkSend id' finish waitingOutput waker) := by
  rw [parkSend]
  cases here : c.streams[id']? with
  | none => exact .refl
  | some s =>
    apply goOn_if_quiet
    apply setStream_quiet here
    right
    cases finish <;> rfl

theorem parkRecv_quiet (waker : Waker) : ReflTransGen (HalfStep id) c (c.parkRecv id' waker) := by
  rw [parkRecv]
  cases here : c.streams[id']? with
  | none => exact .refl
  | some s =>
    apply goOn_if_quiet
    exact setStream_quiet here (.inr rfl)

theorem parkAccept_quiet (kind : AcceptKind) (waker : Waker) :
    ReflTransGen (HalfStep id) c (parkAccept c kind waker) := by
  cases kind with
  | uni =>
    rw [parkAccept]
    apply goOn_if_quiet
    exact quiet_of_streams rfl rfl rfl (.refl c)
  | bidi =>
    rw [parkAccept]
    apply goOn_if_quiet
    exact quiet_of_streams rfl rfl rfl (.refl c)

theorem parkOpen_quiet (opener : ℕ) (kind : OpenKind) (waker : Waker) :
    ReflTransGen (HalfStep id) c (parkOpen c opener kind waker) := by
  cases kind with
  | uni =>
    rw [parkOpen]
    apply goOn_if_quiet
    exact quiet_of_streams rfl rfl rfl (.refl c)
  | bidi =>
    rw [parkOpen]
    apply goOn_if_quiet
    exact quiet_of_streams rfl rfl rfl (.refl c)

theorem popPending_quiet (kind : AcceptKind) (rest : List StreamId) :
    ReflTransGen (HalfStep id) c (popPending c kind rest) := by
  cases kind <;> exact quiet_of_streams rfl rfl rfl (.refl c)

end Quiet

/-! ## Programs -/

/-- The program does to the half only what `HalfStep` lists. -/
def Goes {α : Type} (id : StreamId) (m : CoreM β ν α) (c : Core β ν) : Prop := Moves (HalfStep id) m c fun _ _ => True

section Rules
variable {α γ : Type} {id : StreamId} {m : CoreM β ν α} {f : α → CoreM β ν γ} {c d : Core β ν}

theorem Goes.pure {a : α} : Goes id (pure a) c := Moves.pure trivial

theorem Goes.panic {message : Panic} : Goes id (fail message : CoreM β ν α) c := Moves.fail

theorem Goes.bind (h : Goes id m c) (hf : ∀ a d, Goes id (f a) d) : Goes id (m >>= f) c :=
  Moves.bind h fun a d _ => hf a d

theorem Goes.get {f : Core β ν → CoreM β ν γ} (h : Goes id (f c) c) : Goes id (get >>= f) c := Moves.get h

theorem Goes.steps {m : CoreM β ν PUnit} {f : PUnit → CoreM β ν γ} (hm : m c = .ok ⟨⟩ d)
    (hcd : ReflTransGen (HalfStep id) c d) (hf : Goes id (f ⟨⟩) d) : Goes id (m >>= f) c := by
  rw [Goes, Moves, ensures_bind, ensures_of_ok hm]
  exact Moves.behind hcd hf

theorem Goes.modifyLast {g : Core β ν → Core β ν} (hcd : ReflTransGen (HalfStep id) c (g c)) :
    Goes id (modify g : CoreM β ν PUnit) c := (moves_of_ok modify_apply).mpr ⟨hcd, trivial⟩

theorem Goes.set {f : PUnit → CoreM β ν γ} (hcd : ReflTransGen (HalfStep id) c d) (hf : Goes id (f ⟨⟩) d) :
    Goes id (set d >>= f) c := .steps rfl hcd hf

theorem Goes.modify {g : Core β ν → Core β ν} {f : PUnit → CoreM β ν γ}
    (hcd : ReflTransGen (HalfStep id) c (g c)) (hf : Goes id (f ⟨⟩) (g c)) : Goes id (modify g >>= f) c :=
  .steps rfl hcd hf

theorem lower_quiet (l : Connection β ν) : ReflTransGen (HalfStep id) c { c with lower := l } :=
  quiet_of_streams rfl rfl rfl (.refl c)

theorem Goes.lower {m : ConnectionM β ν α} {f : Except Error α → CoreM β ν γ}
    (hf : ∀ r l, Goes id (f r) { c with lower := l }) : Goes id (lowerCall m >>= f) c := by
  rw [Goes, Moves, ensures_bind, lowerCall, ensures_within, ensures_attempt]
  cases hm : m c.lower with
  | ok a l => exact (ensures_of_ok hm).mpr (Moves.behind (lower_quiet l) (hf _ _))
  | error e l =>
    apply (ensures_of_error hm).mpr
    cases e with
    | failed error => exact Moves.behind (lower_quiet l) (hf _ _)
    | outOfFuel => exact lower_quiet l

theorem Goes.map {g : α → γ} (h : Goes id m c) : Goes id (g <$> m) c := Goes.bind h fun _ _ => .pure

end Rules

/-! ## Routing -/

section Routing
variable {c d : Core β ν} {id id' : StreamId} {event : Event}

theorem hearing_other (hear : ∀ h : Half, h.hear id event = h) (unknown : discovered event ≠ some id)
    (h : Option Half) : hearing id event h = h := by
  cases h with
  | none => rw [hearing, if_neg unknown]
  | some h => rw [hearing, hear]

theorem half_observe : half (observe c event) id = half c id := rfl

theorem half_enqueue : half (c.enqueue id') id = if id' = id then some {} else half c id := by
  rw [half, half, enqueue_streams]
  simp only [Std.TreeMap.getElem?_insert, compare_eq_iff]
  split <;> rfl

theorem fail_terminal_live (h : c.terminal = none) (t : ConnectionTerminal) : (c.fail t).terminal = some t := by
  rw [fail_terminal, h]
  rfl

theorem refused_internal (h : c.terminal = none) (message : String) : Refused (c.fail (.internal message)) := by
  exact ⟨.internal message, fail_terminal_live h _, .inr ⟨message, rfl⟩⟩

theorem refused_overload : Refused c.overload := by
  refine ⟨c.terminal.getD (.application excessiveLoad), ?_, .inl ?_⟩
  · rw [overload, fail_terminal]
  · rw [overload, fail_closeIsFailure]

theorem observe_heard (event : Event) (live : c.terminal = none) (quiet : ∀ h : Half, h.hear id event = h)
    (unknown : discovered event ≠ some id) (free : ¬ carries id event) : HalfStep id c (observe c event) := by
  refine .heard _ live rfl rfl (.inr ⟨fun h => absurd h free, ?_⟩)
  rw [half_observe, hearing_other quiet unknown]

theorem discoverPeer_halves (id' : StreamId) (event : Event) (live : c.terminal = none) :
    (∃ d s, (observe c event).discoverPeer id' = (true, observe d event) ∧ d.terminal = none ∧
      d.routed = c.routed ∧ d.role = c.role ∧ d.streams[id']? = some s ∧
      ∀ id, half d id = if id' = id then some ((half c id).getD {}) else half c id) ∨
    ∃ d, (observe c event).discoverPeer id' = (false, d) ∧ Refused d ∧
      d.routed = c.routed ++ [event] ∧ d.role = c.role := by
  rw [discoverPeer]
  split
  · rename_i known
    obtain ⟨s, here⟩ := contains_iff.mp known
    refine .inl ⟨c, s, rfl, live, rfl, rfl, here, fun id => ?_⟩
    split
    · rename_i heq
      subst heq
      rw [half_of_lookup (c := c) here]
      rfl
    · rfl
  rename_i unknown
  have hunknown : c.streams[id']? = none := contains_eq_false_iff.mp (Bool.eq_false_iff.mpr unknown)
  split
  · exact .inr ⟨_, rfl, refused_internal (c := observe c event) live _, by rw [fail_routed]; rfl, by rw [fail_role]; rfl⟩
  split
  · refine .inr ⟨_, rfl, refused_overload, ?_, ?_⟩
    · rw [overload, fail_routed]
      rfl
    · rw [overload, fail_role]
      rfl
  · obtain ⟨_, _, _, _, _, _, heq⟩ := enqueue_same c id'
    refine .inl ⟨c.enqueue id', _, by rw [enqueue_observe], ?_, ?_, ?_, enqueue_lookup, fun id => ?_⟩
    · rw [heq]
      exact live
    · rw [heq]
    · rw [heq]
    · rw [half_enqueue]
      split
      · rename_i hid
        subst hid
        rw [half, hunknown]
        rfl
      · rfl

theorem receive_half {s : StreamState} {data : Bytes} {fin : Bool} (here : d.streams[id']? = some s)
    (live : s.recvShutdownSent = false) :
    half (d.receive id' s data fin) id = if id' = id then some ((receiveHalf s).take data fin) else half d id := by
  have hset (t : StreamState) (wakes : List Waker) : half ((d.setStream id' t).wake wakes) id =
      if id' = id then some (receiveHalf t) else half d id := half_setStream t
  rw [Core.receive]
  by_cases hdata : data = []
  · rw [if_neg (by simpa using hdata)]
    by_cases hfin : (fin && s.recvTerminal.isNone) = true
    · rw [if_pos hfin, hset]
      simp [Half.take, receiveHalf, live, hdata, hfin]
    · rw [if_neg hfin]
      split
      · rename_i heq
        subst heq
        rw [half_of_lookup here]
        simp [Half.take, receiveHalf, live, hdata, hfin]
      · rfl
  · rw [if_pos hdata, hset]
    simp [Half.take, receiveHalf, live, hdata]

theorem receive_frame (d : Core β ν) (id' : StreamId) (s : StreamState) (data : Bytes) (fin : Bool) :
    (d.receive id' s data fin).routed = d.routed ∧ (d.receive id' s data fin).role = d.role := by
  rw [Core.receive]
  split
  · exact ⟨rfl, rfl⟩
  split <;> exact ⟨rfl, rfl⟩

theorem hearing_data {offset : ℕ} {data : Bytes} {fin : Bool} (h : Option Half) :
    hearing id (.streamData id' offset data fin) h =
      if id' = id then some ((h.getD {}).take data fin) else h := by
  cases h <;> by_cases heq : id' = id <;> simp [hearing, Half.hear, discovered, heq]

theorem half_updateStream {f : StreamState → StreamState × List Waker} :
    half (c.updateStream id' f) id =
      if id' = id then c.streams[id]?.map fun s => receiveHalf (f s).1 else half c id := by
  rw [updateStream]
  cases here : c.streams[id']? with
  | none =>
    dsimp only
    split
    · rename_i heq
      subst heq
      rw [half, here]
      rfl
    · rfl
  | some s =>
    refine (half_setStream (f s).1).trans ?_
    split
    · rename_i heq
      subst heq
      rw [here]
      rfl
    · rfl

theorem updateStream_frame (c : Core β ν) (id' : StreamId) (f : StreamState → StreamState × List Waker) :
    (c.updateStream id' f).routed = c.routed ∧ (c.updateStream id' f).role = c.role := by
  rw [updateStream]
  cases c.streams[id']? <;> exact ⟨rfl, rfl⟩

theorem updateStream_heard {f : StreamState → StreamState × List Waker} {g : Half → Half}
    (live : c.terminal = none) (free : ¬ carries id event) (unknown : discovered event ≠ some id)
    (hear : ∀ h : Half, h.hear id event = if id' = id then g h else h)
    (hf : ∀ s, receiveHalf (f s).1 = g (receiveHalf s)) :
    HalfStep id c ((observe c event).updateStream id' f) := by
  obtain ⟨hrouted, hrole⟩ := updateStream_frame (observe c event) id' f
  refine .heard _ live hrouted hrole (.inr ⟨fun h => absurd h free, ?_⟩)
  rw [half_updateStream, half_observe]
  by_cases heq : id' = id
  · rw [if_pos heq]
    simp only [half, hf]
    show c.streams[id]?.map (fun s => g (receiveHalf s)) = _
    cases c.streams[id]? with
    | none => rw [Option.map_none, Option.map_none, hearing, if_neg unknown]
    | some s => rw [Option.map_some, Option.map_some, hearing, hear, if_pos heq]
  · rw [if_neg heq, hearing_other (fun h => by rw [hear, if_neg heq]) unknown]

variable [Dwnx ν]

theorem routeData_heard {offset : ℕ} {data : Bytes} {fin : Bool} (live : c.terminal = none) :
    Ensures (routeData id' data fin) (observe c (.streamData id' offset data fin))
      (fun _ d => HalfStep id c d) fun _ d => HalfStep id c d := by
  rw [routeData, ensures_get]
  split
  · apply (ensures_of_ok set_apply).mpr
    refine .heard _ live (by rw [fail_routed]; rfl) (by rw [fail_role]; rfl) (.inl ?_)
    exact refused_internal (c := observe c _) live _
  rename_i hvalid
  have hcarries : carries id (.streamData id' offset data fin) → c.receiveDirectionValid id = true := by
    rintro rfl
    have hobserved : (observe c (.streamData id' offset data fin)).receiveDirectionValid id' = true := by
      simpa using hvalid
    exact hobserved
  have hfind : (if (observe c (.streamData id' offset data fin)).streams.contains id' then
        (true, observe c (.streamData id' offset data fin))
      else (observe c (.streamData id' offset data fin)).discoverPeer id') =
      (observe c (.streamData id' offset data fin)).discoverPeer id' := by
    split
    · rename_i known
      rw [discoverPeer, if_pos known]
    · rfl
  rw [hfind]
  rcases discoverPeer_halves id' (.streamData id' offset data fin) live with
    ⟨d, s, hfound, -, hrouted, hrole, here, hhalf⟩ | ⟨d, hfailed, hrefused, hrouted, hrole⟩
  · rw [hfound]
    dsimp only
    rw [ensures_bind, ensures_of_ok set_apply, if_pos rfl]
    have hlookup : (observe d (.streamData id' offset data fin)).streams[id']? = some s := here
    have hs := half_of_lookup here
    rw [hlookup]
    dsimp only
    have hbefore : (half c id').getD {} = receiveHalf s := by
      rw [hhalf, if_pos rfl] at hs
      exact Option.some.inj hs
    cases hsent : s.recvShutdownSent with
    | true =>
      -- nobody reads the stream, and its half stays as it is
      have hdone (e : Core β ν) (routed : e.routed = d.routed ++ [.streamData id' offset data fin])
          (role : e.role = d.role) (same : half e id = half d id) : HalfStep id c e := by
        refine .heard _ live (by rw [routed, hrouted]) (role.trans hrole) (.inr ⟨hcarries, ?_⟩)
        rw [same, hhalf, hearing_data]
        split
        · rename_i heq
          subst heq
          rw [hbefore, Half.take, if_pos (show (receiveHalf s).shut = true from hsent)]
        · rfl
      rw [if_pos rfl]
      split
      · rw [refund]
        apply ensures_lowerCall (c := observe d _) (extendConnectionCredit_below data.length d.lower)
        · intro _ l _
          exact ensures_pure.mpr (hdone _ rfl rfl rfl)
        · intro error l _
          apply (ensures_of_ok modify_apply).mpr
          apply hdone
          · rw [fail_routed]
            rfl
          · rw [fail_role]
            rfl
          · rw [half_fail]
            rfl
      · exact ensures_pure.mpr (hdone _ rfl rfl rfl)
    | false =>
      rw [if_neg (by simp)]
      apply (ensures_of_ok set_apply).mpr
      obtain ⟨hrouted', hrole'⟩ := receive_frame (observe d (.streamData id' offset data fin)) id' s data fin
      refine .heard _ live (by rw [hrouted', observe, hrouted]) (by rw [hrole', observe, hrole])
        (.inr ⟨hcarries, ?_⟩)
      rw [receive_half hlookup hsent, hearing_data, half_observe, hhalf]
      split
      · rename_i heq
        subst heq
        rw [hbefore]
      · rfl
  · rw [hfailed]
    dsimp only
    rw [ensures_bind, ensures_of_ok set_apply, if_neg (by simp), ensures_pure]
    exact .heard _ live hrouted hrole (.inl hrefused)

theorem route_goes (event : Event) (live : c.terminal = none) : Goes id (route event) c := by
  have hlast {f : Core β ν → Core β ν} (h : ReflTransGen (HalfStep id) c (f (observe c event))) :
      Ensures (modify f : CoreM β ν Unit) (observe c event)
        (fun _ d => ReflTransGen (HalfStep id) c d ∧ True) fun _ d => ReflTransGen (HalfStep id) c d :=
    (ensures_of_ok modify_apply).mpr ⟨h, trivial⟩
  rw [Goes, Moves, route.eq_def, ensures_modify]
  cases event with
  | streamData id' offset data fin =>
    exact Ensures.mono (routeData_heard live) (fun _ _ h => ⟨.single h, trivial⟩) fun _ _ h => .single h
  | streamOpened id' =>
    apply hlast
    split
    · refine .single (.heard (.streamOpened id') live ?_ ?_
        (.inl (refused_internal (c := observe c _) live _)))
      · rw [fail_routed]
        rfl
      · rw [fail_role]
        rfl
    · rcases discoverPeer_halves id' (.streamOpened id') live with
        ⟨d, s, hfound, -, hrouted, hrole, -, hhalf⟩ | ⟨d, hfailed, hrefused, hrouted, hrole⟩
      · rw [hfound]
        refine .single (.heard (.streamOpened id') live (by rw [observe, hrouted]) hrole (.inr ⟨False.elim, ?_⟩))
        rw [half_observe, hhalf]
        cases half c id <;> by_cases heq : id' = id <;> simp [hearing, Half.hear, discovered, heq]
      · rw [hfailed]
        exact .single (.heard _ live hrouted hrole (.inl hrefused))
  | streamClosed id' rx tx =>
    refine hlast (.trans (.single ?_) cleanup_quiet)
    exact updateStream_heard live not_false (Option.some_ne_none id).symm (fun h => rfl) fun s => rfl
  | streamReset id' finalSize code =>
    refine hlast (.single ?_)
    exact updateStream_heard live not_false (Option.some_ne_none id).symm (fun h => rfl) fun s => rfl
  | stopSending id' code =>
    refine hlast (.trans (.single (observe_heard (.stopSending id' code) live (fun _ => rfl) (Option.some_ne_none id).symm not_false)) ?_)
    exact updateStream_quiet (.inr fun _ => rfl)
  | streamDataCredit id' maxData =>
    refine hlast (.trans (.single (observe_heard (.streamDataCredit id' maxData) live (fun _ => rfl) (Option.some_ne_none id).symm not_false)) ?_)
    exact updateStream_quiet (.inr fun _ => rfl)
  | connectionDataCredit available =>
    exact hlast (.trans (.single (observe_heard (.connectionDataCredit available) live (fun _ => rfl) (Option.some_ne_none id).symm not_false)) wakeAllSenders_quiet)
  | streamLimit kind maxStreams =>
    have hobserved : HalfStep id c (observe c (.streamLimit kind maxStreams)) :=
      observe_heard _ live (fun _ => rfl) (Option.some_ne_none id).symm not_false
    cases kind with
    | localBidi => exact hlast (.trans (.single hobserved) (wakeOpeners_quiet _))
    | localUni => exact hlast (.trans (.single hobserved) (wakeOpeners_quiet _))
    | remoteBidi => exact ensures_pure.mpr ⟨.single hobserved, trivial⟩
    | remoteUni => exact ensures_pure.mpr ⟨.single hobserved, trivial⟩
  | peerTransportParams =>
    refine hlast (.trans (.single (observe_heard .peerTransportParams live (fun _ => rfl) (Option.some_ne_none id).symm not_false)) ?_)
    exact (wakeOpeners_quiet _).trans ((wakeOpeners_quiet _).trans wakeAllSenders_quiet)

end Routing

/-! ## Sections -/

section Sections
variable {c : Core β ν} {id id' : StreamId}

theorem accept_goes (kind : AcceptKind) (waker : Waker) : Goes id (accept kind waker) c := by
  rw [accept]
  apply Goes.get
  cases c.terminal with
  | some terminal => exact .pure
  | none =>
    cases c.pending kind with
    | nil => exact .set (parkAccept_quiet kind waker) .pure
    | cons id' rest =>
      dsimp only
      cases here : c.streams[id']? with
      | none => exact .set (popPending_quiet kind rest) .panic
      | some s =>
        refine .set (.trans (popPending_quiet kind rest) (.single ?_)) .pure
        have here' : (popPending c kind rest).streams[id']? = some s := by cases kind <;> exact here
        generalize popPending c kind rest = d at here'
        have hset : half (d.setStream id' (s.accept kind)) id =
            if id' = id then some (receiveHalf (s.accept kind)) else half d id := half_setStream _
        by_cases heq : id' = id
        · rw [if_pos heq] at hset
          subst heq
          refine .accepted rfl rfl (.refl d) (half_of_lookup here') (hset.trans ?_)
          simp [receiveHalf, StreamState.accept]
        · rw [if_neg heq] at hset
          exact .quiet rfl rfl (.refl d) hset

theorem failOver_goes {α : Type} (terminal : ConnectionTerminal) (a : α) : Goes id (failOver terminal a) c :=
  .modify (fail_quiet terminal) .pure

theorem orFail_goes (result : Except ConnectionTerminal Unit) : Goes id (orFail result) c := by
  cases result with
  | ok _ => exact .pure
  | error terminal => exact .modifyLast (fail_quiet terminal)

theorem park_goes {α : Type} (finish output : Bool) (waker : Waker) (a : α) :
    Goes id (park id' finish output waker a) c := .modify (parkSend_quiet finish _ waker) .pure

theorem keepWriting_goes (data : Buf) : Goes id (keepWriting id' data) c := by
  rw [keepWriting]
  apply Goes.get
  cases here : c.streams[id']? with
  | none => exact .panic
  | some s => exact .modifyLast (setStream_quiet here (.inr rfl))

theorem keepAndPark_goes {data : Buf} {finish output : Bool} {waker : Waker} {step : WriteStep} :
    Goes id (do
      keepWriting id' data
      park id' finish output waker step) c :=
  .bind (keepWriting_goes data) fun _ _ => park_goes finish output waker step

theorem stopWriting_quiet : ReflTransGen (HalfStep id) c (stopWriting c id') :=
  updateStream_quiet (.inr fun _ => rfl)

theorem sendData_goes (data : Buf) : Goes id (sendData id' data) c := by
  rw [sendData]
  apply Goes.get
  cases sendTerminal c id' with
  | some error => exact .pure
  | none =>
    cases here : c.streams[id']? with
    | none => exact .pure
    | some s =>
      dsimp only
      split
      · exact .pure
      · exact .set (setStream_quiet here (.inr rfl)) .pure

theorem finishCheck_goes : Goes id (finishCheck id') c := by
  rw [finishCheck]
  apply Goes.get
  cases c.terminal <;> exact .pure

variable [Dwnx ν]

theorem offerRetained_goes (data : Buf) (waker : Waker) : Goes id (offerRetained id' data waker) c := by
  rw [offerRetained]
  apply Goes.lower
  intro r l
  split
  · split
    · exact failOver_goes _ _
    split
    · exact keepAndPark_goes
    · apply Goes.modify goOn_quiet
      split
      · exact .pure
      · apply Goes.bind (keepWriting_goes _)
        intro _ d
        split
        · exact park_goes _ _ _ _
        · exact .pure
  · exact keepAndPark_goes
  · exact keepAndPark_goes
  · exact failOver_goes _ _

theorem retainedTurn_goes (waker : Waker) : Goes id (retainedTurn id' waker) c := by
  rw [retainedTurn]
  apply Goes.get
  split
  · exact .pure
  split
  · exact .pure
  · apply Goes.modify (updateStream_quiet (.inr fun _ => rfl))
    split
    · exact .pure
    split
    · exact failOver_goes _ _
    · exact offerRetained_goes _ waker

theorem finishWrite_goes (waker : Waker) : Goes id (finishWrite id' waker) c := by
  rw [finishWrite]
  apply Goes.get
  split
  · exact .pure
  split
  · exact .pure
  · exact .pure
  · apply Goes.lower
    intro r l
    split
    · split
      · apply Goes.modify (updateStream_quiet (.inr fun _ => rfl))
        exact .modify goOn_quiet .pure
      · exact failOver_goes _ _
    · exact park_goes _ _ _ _
    · exact park_goes _ _ _ _
    · exact failOver_goes _ _

theorem resetSend_goes (code : ℕ) : Goes id (resetSend id' code) c := by
  rw [resetSend]
  apply Goes.get
  cases here : c.streams[id']? with
  | none => exact .pure
  | some s =>
    dsimp only
    split
    · exact .pure
    split
    · exact .modify (setStream_quiet here (.inr rfl)) .pure
    · apply Goes.lower
      intro r l
      cases r with
      | error error => exact .pure
      | ok _ => exact .modify (setStream_quiet here (.inr rfl)) .pure

theorem resetStream_goes (code : ℕ) : Goes id (resetStream id' code) c := by
  rw [resetStream]
  apply Goes.modify stopWriting_quiet
  exact Goes.bind (resetSend_goes code) fun r _ => orFail_goes r

theorem dropSend_goes : Goes id (dropSend id') c := by
  have hdrop (d : Core β ν) : Goes id (modify (·.dropDirection id' true) : CoreM β ν Unit) d :=
    .modifyLast ((updateStream_quiet (.inr fun _ => rfl)).trans cleanup_quiet)
  rw [dropSend]
  apply Goes.modify stopWriting_quiet
  apply Goes.get
  split
  · apply Goes.bind (resetSend_goes abandoned)
    intro r d
    exact Goes.bind (orFail_goes r) fun _ d => hdrop d
  · exact hdrop _

theorem sendWrite_goes (chunk : Bytes) (waker : Waker) : Goes id (sendWrite id' chunk waker) c := by
  rw [sendWrite]
  apply Goes.lower
  intro r l
  split
  · split
    · exact failOver_goes _ _
    split
    · exact park_goes _ _ _ _
    · exact .modify goOn_quiet .pure
  · exact park_goes _ _ _ _
  · exact park_goes _ _ _ _
  · exact failOver_goes _ _

/-! Reading another stream, or giving it up. -/

theorem pollData_other (other : id' ≠ id) (waker : Waker) : Goes id (pollData id' waker) c := by
  rw [pollData]
  apply Goes.get
  split
  · exact .pure
  split
  · rename_i s item rest hrecv
    obtain ⟨s', here, heq⟩ := Option.map_eq_some_iff.mp hrecv
    obtain rfl : s' = s := congrArg Prod.fst heq
    apply Goes.set (setStream_quiet here (.inl other))
    apply Goes.lower
    intro r l
    split
    · exact failOver_goes _ _
    · split
      · apply Goes.modify (updateStream_quiet (.inl other))
        exact .modify goOn_quiet .pure
      · exact .modify goOn_quiet .pure
  · split
    · exact .pure
    · exact .pure
    · exact .pure
    · exact .set (parkRecv_quiet waker) .pure

theorem drainReceived_other (other : id' ≠ id) {s t : StreamState} (here : c.streams[id']? = some s) (code : ℕ) :
    Goes id (drainReceived id' t code) c := by
  rw [drainReceived]
  apply Goes.modify (setStream_quiet here (.inl other))
  split
  · exact .pure
  · apply Goes.lower
    intro r l
    cases r with
    | ok _ => exact .pure
    | error error => exact .pure

theorem discardReceive_other (other : id' ≠ id) (code : ℕ) : Goes id (discardReceive id' code) c := by
  rw [discardReceive]
  apply Goes.get
  cases here : c.streams[id']? with
  | none => exact .pure
  | some s =>
    dsimp only
    split
    · apply Goes.lower
      intro r l
      cases r with
      | error error => exact .pure
      | ok _ => exact drainReceived_other (c := { c with lower := l }) other here code
    · exact drainReceived_other other here code

theorem stopSending_other (other : id' ≠ id) (code : ℕ) : Goes id (stopSending id' code) c :=
  .bind (discardReceive_other other code) fun r _ => orFail_goes r

theorem dropRecv_other (other : id' ≠ id) : Goes id (dropRecv id') c := by
  apply Goes.bind (discardReceive_other other abandoned)
  intro r d
  apply Goes.bind (orFail_goes r)
  intro _ d
  exact .modifyLast ((updateStream_quiet (.inl other)).trans cleanup_quiet)

/-! The driver. -/

theorem routeQueued_goes (budget : ℕ) : ∀ c : Core β ν, c.terminal = none → Goes id (routeQueued budget) c := by
  induction budget with
  | zero => intro c _; exact .pure
  | succ budget ih =>
    intro c live
    rw [routeQueued]
    apply Goes.lower
    intro r l
    split
    · rename_i event
      apply Goes.bind (route_goes (c := { c with lower := l }) event live)
      intro _ d
      apply Goes.get
      split
      · exact .pure
      · rename_i hlive
        apply ih d
        simpa using hlive
    · exact .pure

variable [AsyncByteStream β]

theorem routePolled_goes (fuel budget : ℕ) (live : c.terminal = none) : Goes id (routePolled fuel budget) c := by
  rw [routePolled]
  apply Goes.lower
  intro r l
  split
  · rename_i event
    apply Goes.bind (route_goes (c := { c with lower := l }) event live)
    intro _ d
    apply Goes.get
    split
    · exact .pure
    · rename_i hlive
      exact .bind (routeQueued_goes _ d (by simpa using hlive)) fun _ _ => .pure
  · exact .modify (fail_quiet _) .pure
  · exact .bind (routeQueued_goes _ _ live) fun _ _ => .pure

theorem finishTurn_goes (fuel queuedBefore budget : ℕ) (live : c.terminal = none) :
    Goes id (finishTurn fuel queuedBefore budget) c := by
  have hlast (again : Bool) (d : Core β ν) :
      Goes id (if again then modify goOn else pure () : CoreM β ν Unit) d := by
    cases again with
    | false => exact .pure
    | true => exact .modifyLast goOn_quiet
  have hwoken (again : Bool) (d : Core β ν) : Goes id (do
      modify fun c => if c.terminal.isNone && decide (c.lower.out.filled < queuedBefore) then
        c.wakeOutputSenders else c
      if again then modify goOn) d := by
    refine .modify ?_ (hlast _ _)
    split
    · exact wakeOutputSenders_quiet
    · exact .refl
  rw [finishTurn]
  split
  · exact .bind (routePolled_goes fuel budget live) fun _ d => hwoken _ d
  · exact .bind .pure fun _ d => hwoken _ d

theorem driveTurn_goes (fuel : ℕ) : Goes id (driveTurn fuel) c := by
  rw [driveTurn]
  apply Goes.get
  split
  · exact .pure
  · rename_i hlive
    apply Goes.bind (routeQueued_goes _ c (by simpa using hlive))
    intro budget d
    apply Goes.get
    split
    · exact .pure
    · rename_i hlive
      exact finishTurn_goes fuel _ budget (by simpa using hlive)

omit [Dwnx ν] [AsyncByteStream β] in
theorem complete_goes (error : AdapterError) : Goes id (complete error) c :=
  .modify (quiet_of_streams rfl rfl rfl (.refl c)) .pure

theorem driveClose_goes (fuel : ℕ) (reason : CloseReason) : Goes id (driveClose fuel reason) c := by
  rw [driveClose]
  apply Goes.lower
  intro r l
  split
  · apply Goes.modify (quiet_of_streams rfl rfl rfl (.refl _))
    apply Goes.get
    split
    · split
      · exact .panic
      · exact complete_goes _
    · exact .pure
  · exact complete_goes _
  · exact .pure

theorem drivePump_goes (fuel : ℕ) : Goes id (drivePump fuel) c := by
  rw [drivePump]
  apply Goes.get
  apply Goes.lower
  intro r l
  apply Goes.modify
  · split
    · exact wakeOutputSenders_quiet
    · exact .refl
  · cases r with
    | error error => exact .modify (fail_quiet _) (complete_goes _)
    | ok _ => exact .pure

theorem driveEvents_goes (fuel : ℕ) : Goes id (driveEvents fuel) c := by
  rw [driveEvents]
  apply Goes.bind (driveTurn_goes fuel)
  intro _ d
  apply Goes.get
  split
  · split
    · exact .modify goOn_quiet .pure
    · exact complete_goes _
  · split
    · exact .pure
    · exact drivePump_goes fuel

theorem pollDriver_goes (fuel : ℕ) : Goes id (pollDriver fuel) c := by
  rw [pollDriver]
  apply Goes.get
  split
  · cases c.driverError <;> exact .pure
  · cases c.close with
    | some reason => exact driveClose_goes fuel reason
    | none => exact driveEvents_goes fuel

/-- The section reads the stream or gives it up. -/
def reads (id : StreamId) : Section → Bool
  | .pollData id' _ | .stopSending id' _ | .dropRecv id' => decide (id' = id)
  | _ => false

/-- The section is one that the driver's poll is made of, and no call by itself. -/
def routes : Section → Bool
  | .route _ => true
  | _ => false

/-- The section asks for a new stream. -/
def opens : Section → Bool
  | .openStream _ _ _ => true
  | _ => false

theorem program_goes (fuel : ℕ) (sec : Section) (other : reads id sec = false) (routed : routes sec = false)
    (known : opens sec = false) : Goes id (sec.program fuel) c := by
  cases sec with
  | route event => cases routed
  | driver => exact .map (pollDriver_goes fuel)
  | accept kind waker => exact .map (accept_goes kind waker)
  | openStream opener kind waker => cases known
  | allocateOpener => exact .get (.set (quiet_of_streams rfl rfl rfl (.refl c)) .pure)
  | removeOpener id => exact .map (.modifyLast (quiet_of_streams rfl rfl rfl (.refl c)))
  | close code reason => exact .map (.modifyLast (requestClose_quiet code reason))
  | sendCheck id => exact .get .pure
  | retainedTurn id waker => exact .map (retainedTurn_goes waker)
  | sendData id data => exact .map (sendData_goes data)
  | finishCheck id => exact .map finishCheck_goes
  | finishWrite id waker => exact .map (finishWrite_goes waker)
  | reset id code => exact .map (resetStream_goes code)
  | sendGuard id => exact .get .pure
  | sendWrite id chunk waker => exact .map (sendWrite_goes chunk waker)
  | dropSend id => exact .map dropSend_goes
  | pollData id' waker => exact .map (pollData_other (by simpa [reads] using other) waker)
  | stopSending id' code => exact .map (stopSending_other (by simpa [reads] using other) code)
  | dropRecv id' => exact .map (dropRecv_other (by simpa [reads] using other))

theorem step_halves (fuel : ℕ) (sec : Section) (c : Core β ν) (other : reads id sec = false)
    (routed : routes sec = false) (known : opens sec = false) :
    ReflTransGen (HalfStep id) c (sec.step fuel c).2 := by
  have hstart : ReflTransGen (HalfStep id) c { c with effects := {} } := quiet_of_streams rfl rfl rfl (.refl c)
  exact hstart.trans (Moves.outcome (program_goes fuel sec other routed known))

end Sections

end Ngnet.HyperiumReceiveHalves
