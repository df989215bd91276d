import Mathlib.Data.List.Induction
import Ngnet.HyperiumSteps

/-!
# Waiters and the end of the connection

Any number of calls interleave, one critical section at a time. Every section that parks a task
looks at the terminal first, but for the last one of `poll_send`, which trusts the look its first
section had. A connection that ends in between leaves the task parked, and nothing wakes it. In
every run where that section finds the connection open, nobody waits on a connection that ended.
-/

namespace Ngnet.HyperiumWaiters
open QmuxVarints QmuxErrors QmuxStreams StatefulPrograms QmuxRecordWriter QmuxConnection
open HyperiumCore Core HyperiumHandles HyperiumSteps Relation

variable {β ν : Type}

/-- Every waiter slot of the core is empty. -/
structure NobodyWaits (c : Core β ν) : Prop where
  slots : NoneWaits c
  streams : ∀ (id : StreamId) (s : StreamState), c.streams[id]? = some s → s.waiters = []

/-- Nobody waits on a core that has ended. -/
def Released (c : Core β ν) : Prop := c.terminal.isSome = true → NobodyWaits c

theorem waiters_abandon (s : StreamState) : s.abandon.waiters = [] := rfl

theorem released_fail (c : Core β ν) (terminal : ConnectionTerminal) (h : Released c) :
    Released (c.fail terminal) := by
  intro _
  cases hterminal : c.terminal with
  | some first =>
    have hsome : c.terminal.isSome = true := by rw [hterminal]; rfl
    rw [Core.fail, if_pos hsome]
    exact h hsome
  | none =>
    have hnone : ¬ c.terminal.isSome = true := by rw [hterminal]; simp
    refine ⟨?_, fun id s here => ?_⟩
    · rw [Core.fail, if_neg hnone]
      refine ⟨rfl, rfl, fun opener slots hslots => ?_⟩
      change (c.openers.map fun _ _ => ({} : OpenerWaiters))[opener]? = some slots at hslots
      rw [Std.TreeMap.getElem?_map] at hslots
      obtain ⟨old, -, rfl⟩ := Option.map_eq_some_iff.mp hslots
      rfl
    · rw [fail_lookup, hterminal] at here
      obtain ⟨old, -, rfl⟩ := Option.map_eq_some_iff.mp here
      exact waiters_abandon old

variable {c : Core β ν} {id : StreamId}

theorem NobodyWaits.setStream {t : StreamState} (h : NobodyWaits c)
    (ht : t.waiters = []) : NobodyWaits (c.setStream id t) := by
  refine ⟨⟨h.slots.acceptUni, h.slots.acceptBidi, h.slots.openers⟩, fun id' s here => ?_⟩
  rw [getElem?_setStream] at here
  split at here
  · cases here
    exact ht
  · exact h.streams id' s here

theorem NobodyWaits.enqueue (h : NobodyWaits c) : NobodyWaits (c.enqueue id) := by
  have hnew : NobodyWaits (c.setStream id { pendingAccept := true }) := h.setStream rfl
  rw [Core.enqueue]
  cases acceptKind id with
  | uni => exact ⟨⟨rfl, h.slots.acceptBidi, h.slots.openers⟩, hnew.streams⟩
  | bidi => exact ⟨⟨h.slots.acceptUni, rfl, h.slots.openers⟩, hnew.streams⟩

variable {d : Core β ν}

theorem Released.met (h : Released c) (met : Met c id d) : Released d := by
  rcases met with rfl | ⟨-, rfl⟩
  · exact h
  · intro hended
    obtain ⟨_, _, _, _, _, _, heq⟩ := enqueue_same c id
    rw [heq] at hended
    exact (h hended).enqueue

theorem Released.setStream {s t : StreamState} (h : Released c)
    (here : c.streams[id]? = some s) (ht : c.terminal = none ∨ (s.waiters = [] → t.waiters = [])) :
    Released (c.setStream id t) := by
  intro hended
  change c.terminal.isSome = true at hended
  rcases ht with hlive | ht
  · rw [hlive] at hended
    cases hended
  · exact (h hended).setStream (ht ((h hended).streams id s here))

theorem Released.same (h : Released c) (terminal : d.terminal = c.terminal)
    (acceptUni : d.acceptUni = c.acceptUni) (acceptBidi : d.acceptBidi = c.acceptBidi)
    (openers : d.openers = c.openers) (streams : d.streams = c.streams) : Released d := by
  intro hended
  rw [terminal] at hended
  obtain ⟨⟨huni, hbidi, hopeners⟩, hstreams⟩ := h hended
  refine ⟨⟨acceptUni.trans huni, acceptBidi.trans hbidi, ?_⟩, ?_⟩
  · rwa [openers]
  · rwa [streams]

/-- A section that looks at the terminal before it parks. -/
def Looks (sec : Section) : Prop := ∀ id chunk waker, sec ≠ .sendWrite id chunk waker

theorem live_of_mayPark {sec : Section} (looks : Looks sec) (h : MayPark sec c) :
    c.terminal = none := by
  rcases h with ⟨id, chunk, waker, heq⟩ | hlive
  · exact absurd heq (looks id chunk waker)
  · exact hlive

theorem released_step {sec : Section} (looks : Looks sec) (h : CoreStep sec c d)
    (hc : Released c) : Released d := by
  cases h with
  | effects _ => exact hc.same rfl rfl rfl rfl rfl
  | lower _ => exact hc.same rfl rfl rfl rfl rfl
  | resolved _ _ _ _ => exact hc.same rfl rfl rfl rfl rfl
  | refunded _ => exact hc.same rfl rfl rfl rfl rfl
  | observed _ met =>
    rcases met with rfl | ⟨id, -, met⟩
    · exact hc.same rfl rfl rfl rfl rfl
    · exact (hc.met met).same rfl rfl rfl rfl rfl
  | @arrived _ id s _ data fin _ met here _ _ =>
    have harrived := (hc.met met).setStream here
      (t := { s with recv := s.recv ++ [⟨data, fin⟩], recvWaiter := none }) (.inr fun h => ?_)
    · exact harrived.same rfl rfl rfl rfl rfl
    · rw [waiters_eq_nil] at h ⊢
      exact ⟨rfl, h.2⟩
  | failed _ terminal _ _ _ losing same =>
    apply released_fail
    rcases losing with heq | ⟨s, t, here, heq, -, -, hwaiters⟩
    · rw [same, heq]
      exact hc.same rfl rfl rfl rfl rfl
    · rw [same, heq]
      exact (hc.setStream here (.inr fun h => hwaiters.trans h)).same rfl rfl rfl rfl rfl
  | overloaded _ same =>
    apply released_fail
    rw [same]
    exact hc.same rfl rfl rfl rfl rfl
  | closed _ =>
    rw [requestClose]
    split
    · exact hc
    · exact released_fail _ _ (hc.same rfl rfl rfl rfl rfl)
  | @accepted kind id rest s _ _ here =>
    have haccepted := hc.setStream (t := s.accept kind) here (.inr fun h => h)
    cases kind <;> exact haccepted.same rfl rfl rfl rfl rfl
  | @panicked kind _ _ _ _ => cases kind <;> exact hc.same rfl rfl rfl rfl rfl
  | @openedStream kind id _ _ _ =>
    intro hended
    have hnobody : NobodyWaits c := hc hended
    have hopened : NobodyWaits (c.setStream id
        { sendHandle := true, recvHandle := decide (kind = OpenKind.bidi) }) := hnobody.setStream rfl
    exact ⟨⟨hnobody.slots.acceptUni, hnobody.slots.acceptBidi, hnobody.slots.openers⟩, hopened.streams⟩
  | slots kept =>
    intro hended
    change c.terminal.isSome = true at hended
    rcases kept with hlive | hkept
    · rw [hlive] at hended
      cases hended
    · exact ⟨hkept (hc hended).slots, (hc hended).streams⟩
  | updated here mild => exact hc.setStream here (mild.waiters.imp_left (live_of_mayPark looks))
  | swept mild =>
    intro hended
    change c.terminal.isSome = true at hended
    obtain ⟨⟨huni, hbidi, hopeners⟩, hstreams⟩ := hc hended
    refine ⟨⟨huni, hbidi, hopeners⟩, fun id t ht => ?_⟩
    rw [getElem?_mapStreams] at ht
    obtain ⟨s, here, rfl⟩ := Option.map_eq_some_iff.mp ht
    rcases (mild id s).waiters with hpark | hkept
    · rw [live_of_mayPark looks hpark] at hended
      cases hended
    · exact hkept (hstreams id s here)
  | @read id s item rest l here _ _ =>
    exact (hc.setStream (t := { s with recv := rest }) here (.inr fun h => h)).same rfl rfl rfl rfl rfl
  | @readLast id s item rest l here _ _ _ =>
    have htaken := hc.setStream (t := { s with recv := rest }) here (.inr fun h => h)
    have hfinished := htaken.setStream (t := { s with recv := rest, recvTerminal := some .finished })
      setStream_lookup (.inr fun h => h)
    exact hfinished.same rfl rfl rfl rfl rfl
  | discarded here _ _ =>
    refine Released.same (hc.setStream here (.inr fun h => ?_)) rfl rfl rfl rfl rfl
    exact h
  | dropped here _ =>
    refine hc.setStream here (.inr fun h => ?_)
    exact h
  | @retired id _ _ _ _ _ =>
    intro hended
    obtain ⟨⟨huni, hbidi, hopeners⟩, hstreams⟩ := hc hended
    refine ⟨⟨huni, hbidi, hopeners⟩, fun id' s here => ?_⟩
    change (c.streams.erase id)[id']? = some s at here
    rw [Std.TreeMap.getElem?_erase] at here
    split at here
    · cases here
    · exact hstreams id' s here

/-! ## Runs of the system -/

section Runs
variable [Dwnx ν] [AsyncByteStream β]

/-- Every section but the last one of `poll_send` leaves nobody waiting on an ended core; and so
does that one where it finds the core open. -/
theorem released_section (fuel : ℕ) (sec : Section) (c : Core β ν)
    (guarded : (∃ id chunk waker, sec = .sendWrite id chunk waker) → c.terminal = none) (hc : Released c) :
    Released (sec.step fuel c).2 := by
  by_cases hsend : ∃ id chunk waker, sec = .sendWrite id chunk waker
  · obtain ⟨id, chunk, waker, rfl⟩ := hsend
    have hlive := guarded ⟨id, chunk, waker, rfl⟩
    -- on an open core it parks under the same condition as a section that looked
    have hacts : Acts (.sendGuard id) False ((Section.sendWrite id chunk waker).program fuel)
        { c with effects := {} } fun _ _ => True := map_acts _ (sendWrite_acts chunk waker (.inr hlive))
    have hlooks : Looks (.sendGuard id) := nofun
    have hstart : Released { c with effects := {} } := hc.same rfl rfl rfl rfl rfl
    exact invariant_of_steps (I := Released) (fun _ _ => released_step hlooks) hacts.outcome hstart
  · have hlooks : Looks sec := fun id chunk waker heq => hsend ⟨id, chunk, waker, heq⟩
    exact invariant_of_steps (I := Released) (fun _ _ => released_step hlooks) (step_steps fuel sec c).1 hc

/-- The step does not run the last section of `poll_send` on a connection that has ended. -/
def Guarded (action : Action) (s : System β ν) : Prop :=
  ∀ index id chunk waker, action = .advance index →
    (s.calls[index]?).join = some (.last (.sendWrite id chunk waker)) → s.core.terminal = none

theorem phase_sec_sendWrite {phase : Phase} {id : StreamId} {chunk : Bytes} {waker : Waker}
    (h : phase.sec = .sendWrite id chunk waker) : phase = .last (.sendWrite id chunk waker) := by
  cases phase with
  | last sec => exact congrArg Phase.last h
  | _ => cases h

theorem released_action (fuel : ℕ) (action : Action) (s : System β ν) (guarded : Guarded action s)
    (hs : Released s.core) : Released (action.step fuel s).2.core := by
  cases action with
  | begin call => exact hs
  | advance index =>
    rw [Action.step]
    cases hphase : (s.calls[index]?).join with
    | none => exact hs
    | some phase =>
      refine released_section fuel phase.sec s.core ?_ hs
      rintro ⟨id, chunk, waker, hsec⟩
      exact guarded index id chunk waker rfl (by rw [hphase, phase_sec_sendWrite hsec])

omit [Dwnx ν] [AsyncByteStream β] in
theorem released_new (lower : Connection β ν) (limit : ℕ) : Released (Core.new lower limit) := nofun

/-- The state that a run of actions reaches. -/
def reached (fuel : ℕ) (actions : List Action) (s : System β ν) : System β ν :=
  (run (Action.step fuel) actions s).2

/-- In every run whose steps find the connection open where `poll_send` writes, every waiter slot
is empty in every state in which the connection has ended. -/
theorem nobodyWaits_of_guarded (lower : Connection β ν) (limit fuel : ℕ) (actions : List Action)
    (guarded : ∀ before action after, actions = before ++ action :: after →
      Guarded action (reached fuel before ⟨Core.new lower limit, []⟩)) :
    ∀ before, before <+: actions → (reached fuel before ⟨Core.new lower limit, []⟩).core.terminal.isSome = true →
      NobodyWaits (reached fuel before ⟨Core.new lower limit, []⟩).core := by
  intro before hbefore
  show Released _
  induction before using List.reverseRecOn with
  | nil => exact released_new lower limit
  | append_singleton before action ih =>
    obtain ⟨after, hsplit⟩ := hbefore
    have hactions : actions = before ++ action :: after := by rw [← hsplit]; simp
    have hprev := ih ⟨action :: after, hactions.symm⟩
    have hlast := released_action fuel action _ (guarded before action after hactions) hprev
    rw [reached, run_append]
    exact hlast

end Runs

/-! ## A task that is never woken -/

/-- A stream this side opened, whose peer grants no credit. -/
def stalled : Connection ScriptedStream ScriptedDwnx :=
  .new { writes := [.ready (.ok (.accepted 100))], shutdowns := [.ready (.ok ())] }
    { opens := [.opened ⟨0, zero_le_maxVarint⟩], writevs := [⟨.streamDataBlocked, none⟩] } .client 100

/-- The close comes behind the write that parked. -/
def closeBehind : List Action :=
  [.begin (.once (.openStream 0 .bidi 1)), .advance 0,
    .begin (.pollSend ⟨0, zero_le_maxVarint⟩ 7 ⟨[[1]]⟩), .advance 1, .advance 1, .advance 1,
    .begin (.once (.close 0 [])), .advance 2]

theorem nobodyWaits_closeBehind :
    (reached 9 closeBehind ⟨Core.new stalled 4, []⟩).core.terminal.isSome = true ∧
      NobodyWaits (reached 9 closeBehind ⟨Core.new stalled 4, []⟩).core := by
  have hended : (reached 9 closeBehind ⟨Core.new stalled 4, []⟩).core.terminal.isSome = true := by decide +kernel
  have hopen : ∀ n < closeBehind.length,
      (reached 9 (closeBehind.take n) ⟨Core.new stalled 4, []⟩).core.terminal = none := by decide +kernel
  refine ⟨hended, nobodyWaits_of_guarded stalled 4 9 closeBehind ?_ closeBehind List.prefix_rfl hended⟩
  intro before action after hsplit index id chunk waker _ _
  have hlen : before.length < closeBehind.length := by rw [hsplit]; simp
  have htake : before = closeBehind.take before.length := by rw [hsplit]; simp
  rw [htake]
  exact hopen _ hlen

/-- A handle closes the connection between the look of `poll_send` at the terminal and its write;
the driver then delivers the close. -/
def closeBetween : List Action :=
  [.begin (.once (.openStream 0 .bidi 1)), .advance 0,
    .begin (.pollSend ⟨0, zero_le_maxVarint⟩ 7 ⟨[[1]]⟩), .advance 1, .advance 1,
    .begin (.once (.close 0 [])), .advance 2, .advance 1,
    .begin (.once .driver), .advance 3]

/-- The task of `poll_send` is left waiting on a connection that has ended, also behind the last
poll of the driver. -/
theorem waiter_left_behind :
    ¬ ((reached 9 closeBetween ⟨Core.new stalled 4, []⟩).core.terminal.isSome = true →
        NobodyWaits (reached 9 closeBetween ⟨Core.new stalled 4, []⟩).core) ∧
      (reached 9 closeBetween ⟨Core.new stalled 4, []⟩).core.driverComplete = true := by
  have hended : (reached 9 closeBetween ⟨Core.new stalled 4, []⟩).core.terminal.isSome = true := by decide +kernel
  have hparked : ((reached 9 closeBetween ⟨Core.new stalled 4, []⟩).core.streams[(⟨0, by decide⟩ : StreamId)]?.map
      StreamState.waiters) = some [7] := by decide +kernel
  refine ⟨fun h => ?_, by decide +kernel⟩
  obtain ⟨s, here, hwaiters⟩ := Option.map_eq_some_iff.mp hparked
  rw [(h hended).streams _ s here] at hwaiters
  cases hwaiters

end Ngnet.HyperiumWaiters
