import Ngnet.QmuxConnectionSteps

/-!
# How far a connection reads ahead of its caller

`io/scheduling.rs` gives the ceiling on what is handed to the caller as the allowance plus what
the caller has credited. The count is taken when an event is handed out and the allowance is
looked at before a read only, so what one read decodes, and what is already in the queue, is
not in it. The ceiling holds exactly where every operation decodes no more than what is left
of it beside the queue.
-/

namespace Ngnet.QmuxReadAhead
open QmuxVarints QmuxErrors QmuxStreams StatefulPrograms QmuxRecordWriter
open QmuxConnection QmuxConnectionSteps Relation

variable {β ν : Type}

/-- The stream data that events carry. -/
def dataBytes (events : List Event) : ℕ := (events.map Event.dataLen).sum

theorem dataBytes_append (a b : List Event) : dataBytes (a ++ b) = dataBytes a + dataBytes b := by
  rw [dataBytes, List.map_append, List.sum_append]
  rfl

/-- The stream data handed to the caller. -/
def handedOut (c : Connection β ν) : ℕ := dataBytes c.delivered

/-- The stream data decoded and still in the queue. -/
def queuedData (c : Connection β ν) : ℕ := dataBytes c.conn.events

/-- The bytes that operations pass to `extend_connection_credit`. -/
def passed : List Op → ℕ
  | [] => 0
  | .extendConnectionCredit bytes :: rest => bytes + passed rest
  | _ :: rest => passed rest

/-! ## Every event is handed out once and in order -/

/-- Every event queued so far has been handed out or is still in the queue. -/
def Accounted (c : Connection β ν) : Prop := c.conn.raised = c.delivered ++ c.conn.events

theorem accounted_new (stream : β) (raw : ν) (role : Role) (allowance : ℕ) :
    Accounted (Connection.new stream raw role allowance) := rfl

theorem dataBytes_raised {c : Connection β ν} (h : Accounted c) :
    dataBytes c.conn.raised = handedOut c + queuedData c := by
  rw [h, dataBytes_append]
  rfl

section Steps
variable [Dwnx ν]

variable {P : NativeCall → Prop} {c d : Connection β ν}

theorem Step.accounted {D : Prop} (hstep : Step P D c d)
    (h : Accounted c) : Accounted d := by
  unfold Accounted at *
  cases hstep with
  | stream _ => exact h
  | native calls =>
    obtain ⟨callbacks, hevents, hraised⟩ := calls.events
    rw [hraised, hevents, h, List.append_assoc]
  | signal _ => exact h
  | framer _ => exact h
  | pending _ => exact h
  | latch error =>
    rw [Connection.latch_eq]
    exact h
  | deliver _ first =>
    rw [first] at h
    exact h.trans (List.append_cons _ _ _)
  | credit _ => exact h
  | hand _ _ => exact h
  | commit _ _ => exact h
  | advance _ => exact h
  | reset _ => exact h
  | queueClose reason _ _ =>
    rw [queued_eq]
    exact h
  | written _ _ => exact h
  | shutdown _ _ _ => exact h

theorem Step.raised {D : Prop} (hstep : Step P D c d) :
    c.conn.raised <+: d.conn.raised := by
  cases hstep with
  | native calls =>
    obtain ⟨callbacks, -, hraised⟩ := calls.events
    exact ⟨callbacks, hraised.symm⟩
  | stream _ => exact List.prefix_rfl
  | signal _ => exact List.prefix_rfl
  | framer _ => exact List.prefix_rfl
  | pending _ => exact List.prefix_rfl
  | latch error => simp [Connection.latch_eq]
  | deliver _ _ => exact List.prefix_rfl
  | credit _ => exact List.prefix_rfl
  | hand _ _ => exact List.prefix_rfl
  | commit _ _ => exact List.prefix_rfl
  | advance _ => exact List.prefix_rfl
  | reset _ => exact List.prefix_rfl
  | queueClose reason _ _ =>
    rw [queued_eq]
    exact List.prefix_rfl
  | written _ _ => exact List.prefix_rfl
  | shutdown _ _ _ => exact List.prefix_rfl

theorem Step.delivered (hstep : Step P False c d) :
    d.delivered = c.delivered := by
  cases hstep with
  | deliver asked _ => exact asked.elim
  | stream _ => rfl
  | native _ => rfl
  | signal _ => rfl
  | framer _ => rfl
  | pending _ => rfl
  | latch error => rw [Connection.latch_eq]
  | credit _ => rfl
  | hand _ _ => rfl
  | commit _ _ => rfl
  | advance _ => rfl
  | reset _ => rfl
  | queueClose reason _ _ =>
    rw [queued_eq]
    rfl
  | written _ _ => rfl
  | shutdown _ _ _ => rfl

variable [AsyncByteStream β]

theorem accounted_run (fuel : ℕ) (ops : List Op) (h : Accounted c) :
    Accounted (run (Op.step fuel) ops c).2 := run_preserves (fun _ _ _ _ => Step.accounted) fuel ops h

/-- The events that one operation decodes. -/
def decodes (fuel : ℕ) (op : Op) (c : Connection β ν) : List Event :=
  (op.step fuel c).2.conn.raised.drop c.conn.raised.length

theorem raised_step (fuel : ℕ) (op : Op) (c : Connection β ν) :
    (op.step fuel c).2.conn.raised = c.conn.raised ++ decodes fuel op c := by
  have hgrows : c.conn.raised <+: (op.step fuel c).2.conn.raised :=
    invariant_of_steps (I := fun d : Connection β ν => c.conn.raised <+: d.conn.raised)
      (fun _ _ hstep h => h.trans (Step.raised hstep)) (step_steps fuel op c) List.prefix_rfl
  obtain ⟨more, hmore⟩ := hgrows
  rw [decodes, ← hmore, List.drop_left]

/-! ## Draining the queue -/

theorem tryNextEvent_step (fuel : ℕ) (c : Connection β ν) :
    (Op.tryNextEvent.step fuel c).2 = match c.conn.events with
      | [] => c
      | event :: rest => c.deliver event rest := by
  cases hevents : c.conn.events with
  | nil =>
    rw [Op.step, outcome, show Op.tryNextEvent.program fuel c = .ok (.event none) c from
      bind_ok (takeEvent_empty hevents)]
  | cons event rest =>
    rw [Op.step, outcome, show Op.tryNextEvent.program fuel c =
      .ok (.event (some event)) (c.deliver event rest) from bind_ok (takeEvent_first hevents)]

theorem raised_drain (fuel n : ℕ) (c : Connection β ν) :
    (run (Op.step fuel) (List.replicate n .tryNextEvent) c).2.conn.raised = c.conn.raised := by
  induction n generalizing c with
  | zero => rfl
  | succ n ih =>
    refine (ih (Op.tryNextEvent.step fuel c).2).trans ?_
    rw [tryNextEvent_step]
    split <;> rfl

theorem events_drain (fuel : ℕ) (events : List Event) :
    ∀ c : Connection β ν, c.conn.events = events →
      (run (Op.step fuel) (List.replicate events.length .tryNextEvent) c).2.conn.events = [] := by
  induction events with
  | nil => exact fun c h => h
  | cons event rest ih =>
    intro c h
    refine ih (Op.tryNextEvent.step fuel c).2 ?_
    rw [tryNextEvent_step, h]
    rfl

/-! ## The ceiling -/

theorem handedOut_drain_le_iff (fuel : ℕ) (h : Accounted c) (bound : ℕ) :
    (∀ n, handedOut (run (Op.step fuel) (List.replicate n .tryNextEvent) c).2 ≤ bound) ↔
      dataBytes c.conn.raised ≤ bound := by
  have hdrained (n : ℕ) : dataBytes c.conn.raised =
      handedOut (run (Op.step fuel) (List.replicate n .tryNextEvent) c).2 +
        queuedData (run (Op.step fuel) (List.replicate n .tryNextEvent) c).2 := by
    rw [← raised_drain fuel n c]
    exact dataBytes_raised (accounted_run fuel _ h)
  constructor
  · intro hall
    have hempty : queuedData (run (Op.step fuel)
        (List.replicate c.conn.events.length .tryNextEvent) c).2 = 0 := by
      rw [queuedData, events_drain fuel _ c rfl]
      rfl
    have hlast := hall c.conn.events.length
    have hsplit := hdrained c.conn.events.length
    omega
  · intro hle n
    have hsplit := hdrained n
    omega

end Steps

/-- A record with one STREAM frame of two bytes. -/
def twoBytesArrive : ScriptedStream where
  reads := [.ready (.ok [5, 10, 1, 2, 104, 105])]

def twoBytesDecoded : ScriptedDwnx where
  reads := [⟨.ok .processed, [.streamData ⟨1, one_le_maxVarint⟩ 0 [104, 105] false]⟩]

end Ngnet.QmuxReadAhead
