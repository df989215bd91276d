import Ngnet.Http3Conn

/-!
# Pulling an HTTP/3 body

`Outgoing::next` of `http/body/outgoing.rs` of the crate `ngnet-h3`, down to the frames of the caller's body. A body is
any sequence of answers, one for each time it is polled. `Http3Conn` takes what a whole pull gathers as given; here is
the loop that gathers it.

The loop has no count of its own: it leaves when the body does. A pull gives control back within a number of polls if
one of the answers to them lets it leave.
-/

namespace Ngnet.Http3BodyPulls
open QmuxVarints Http3OutgoingBodies Http3Conn
open Http3Heads (HeaderMap)

variable {ε : Type}

/-! ## The program -/

/-- `http_body::Frame`; the last is a kind that this crate does not carry. -/
inductive Frame
  | data (bytes : Bytes)
  | trailers (fields : HeaderMap)
  | unknown
  deriving DecidableEq, Repr

/-- What `poll_frame` answers. -/
inductive PollFrame (ε : Type)
  | pending
  | frame (frame : Frame)
  | failed (error : ε)
  | ended
  deriving DecidableEq, Repr

inductive Stopped
  | ended
  | abandoned
  deriving DecidableEq, Repr

/-- `polled` counts how often the body was polled. `ending` is `none` where the mutex of its slot is poisoned. -/
structure Outgoing (ε : Type) where
  body : ℕ → PollFrame ε
  polled : ℕ := 0
  ending : Option (Option Ending) := some none
  stopped : Option Stopped := none

namespace Outgoing

def new (body : ℕ → PollFrame ε) : Outgoing ε := { body }

def finish (o : Outgoing ε) (ending : Ending) : Outgoing ε :=
  { o with
    stopped := some (if ending = .failed then .abandoned else .ended)
    ending := o.ending.map fun _ => some ending }

/-- The loop of `next`, for as many turns as it is given. -/
def pull : ℕ → Outgoing ε → List RetainedBytes → Option (BodyOutcome × Outgoing ε)
  | 0, _, _ => none
  | turns + 1, o, pieces =>
    let asked := { o with polled := o.polled + 1 }
    match o.body o.polled with
    | .pending => some (if pieces = [] then .defer else .wrote pieces, asked)
    | .ended => some (.eof pieces, asked.finish .clean)
    -- What was gathered goes with the message that it can no longer finish.
    | .failed _ => some (.defer, asked.finish .failed)
    | .frame (.data bytes) => pull turns asked (if bytes = [] then pieces else pieces ++ [⟨bytes, bytes⟩])
    | .frame (.trailers fields) => some (.eofWithTrailers pieces, asked.finish (.trailers fields))
    | .frame .unknown => pull turns asked pieces

/-- `next`, if its loop leaves within as many turns. -/
def next (turns : ℕ) (o : Outgoing ε) : Option (BodyOutcome × Outgoing ε) :=
  match o.stopped with
  | some .ended => some (.eof [], o)
  | some .abandoned => some (.defer, o)
  | none => pull turns o []

end Outgoing

/-! ## Giving control back -/

/-- The answers on which the loop leaves. -/
def PollFrame.leaves : PollFrame ε → Bool
  | .pending | .failed _ | .ended | .frame (.trailers _) => true
  | .frame (.data _) | .frame .unknown => false

/-- A call returns after `n` polls at most, and retains no more pieces than that. -/
def GivesBack (o : Outgoing ε) (n : ℕ) : Prop :=
  ∃ turns outcome after, o.next turns = some (outcome, after) ∧ after.polled ≤ o.polled + n ∧ outcome.pieces.length ≤ n

theorem pull_succ (turns : ℕ) (o : Outgoing ε) (pieces : List RetainedBytes) :
    if (o.body o.polled).leaves then
      ∃ outcome after, o.pull (turns + 1) pieces = some (outcome, after) ∧ after.polled = o.polled + 1 ∧
        outcome.pieces.length ≤ pieces.length
    else
      ∃ more : List RetainedBytes, more.length ≤ pieces.length + 1 ∧
        o.pull (turns + 1) pieces = { o with polled := o.polled + 1 }.pull turns more := by
  rw [Outgoing.pull]
  cases o.body o.polled with
  | pending =>
    refine ⟨_, _, rfl, rfl, ?_⟩
    split <;> simp_all [BodyOutcome.pieces]
  | ended => exact ⟨_, _, rfl, rfl, Nat.le_refl _⟩
  | failed error => exact ⟨_, _, rfl, rfl, Nat.zero_le _⟩
  | frame frame =>
    cases frame with
    | trailers fields => exact ⟨_, _, rfl, rfl, Nat.le_refl _⟩
    | unknown => exact ⟨pieces, Nat.le_succ _, rfl⟩
    | data bytes =>
      refine ⟨_, ?_, rfl⟩
      split <;> simp

variable {o : Outgoing ε}

theorem pull_isSome {turns k : ℕ} (pieces : List RetainedBytes) (hk : k < turns)
    (h : (o.body (o.polled + k)).leaves = true) : (o.pull turns pieces).isSome = true := by
  induction turns generalizing o pieces k with
  | zero => omega
  | succ turns ih =>
    have hturn := pull_succ turns o pieces
    split at hturn
    · obtain ⟨outcome, after, hpull, -⟩ := hturn
      rw [hpull]
      rfl
    · rename_i hgoes
      obtain ⟨more, -, hpull⟩ := hturn
      obtain _ | k := k
      · exact absurd h hgoes
      · rw [hpull]
        exact ih more (Nat.lt_of_succ_lt_succ hk) (by rwa [Nat.add_assoc, Nat.add_comm 1])

theorem pull_some {turns : ℕ} {after : Outgoing ε} {pieces : List RetainedBytes} {outcome : BodyOutcome}
    (h : o.pull turns pieces = some (outcome, after)) :
    ∃ k, after.polled = o.polled + k + 1 ∧ outcome.pieces.length ≤ pieces.length + k ∧
      (o.body (o.polled + k)).leaves = true ∧ ∀ i < k, (o.body (o.polled + i)).leaves = false := by
  induction turns generalizing o pieces with
  | zero => cases h
  | succ turns ih =>
    have hturn := pull_succ turns o pieces
    split at hturn
    · rename_i hleaves
      obtain ⟨_, _, hpull, hpolled, hpieces⟩ := hturn
      rw [hpull] at h
      cases h
      exact ⟨0, hpolled, hpieces, hleaves, by simp⟩
    · rename_i hgoes
      obtain ⟨more, hmore, hpull⟩ := hturn
      rw [hpull] at h
      obtain ⟨k, hpolled, hpieces, hleaves, hbefore⟩ := ih h
      simp only [Nat.add_assoc, Nat.add_comm 1] at hpolled hleaves hbefore
      refine ⟨k + 1, by rw [hpolled]; omega, by omega, hleaves, fun i hi => ?_⟩
      cases i with
      | zero => exact Bool.eq_false_iff.mpr hgoes
      | succ i => exact hbefore i (Nat.lt_of_succ_lt_succ hi)

theorem next_of_going (h : o.stopped = none) (turns : ℕ) : o.next turns = o.pull turns [] := by
  simp only [Outgoing.next, h]

theorem GivesBack.leaves {n : ℕ} (h : GivesBack o n) (hgoing : o.stopped = none) :
    ∃ k < n, (o.body (o.polled + k)).leaves = true := by
  obtain ⟨turns, outcome, after, hnext, hpolled, -⟩ := h
  rw [next_of_going hgoing] at hnext
  obtain ⟨k, hk, -, hleaves, -⟩ := pull_some hnext
  exact ⟨k, by omega, hleaves⟩

theorem givesBack_of_leaves {n k : ℕ} (hgoing : o.stopped = none) (hk : k < n)
    (hleaves : (o.body (o.polled + k)).leaves = true) : GivesBack o n := by
  obtain ⟨⟨outcome, after⟩, hpull⟩ := Option.isSome_iff_exists.mp (pull_isSome [] hk hleaves)
  obtain ⟨j, hpolled, hpieces, -, hbefore⟩ := pull_some hpull
  have hj : j ≤ k := by
    by_contra hlt
    rw [hbefore k (by omega)] at hleaves
    cases hleaves
  rw [List.length_nil, Nat.zero_add] at hpieces
  exact ⟨n, outcome, after, (next_of_going hgoing n).trans hpull, by omega, by omega⟩

theorem givesBack_of_stopped {stopped : Stopped} (h : o.stopped = some stopped) (n : ℕ) : GivesBack o n := by
  simp only [GivesBack, Outgoing.next, h]
  cases stopped with
  | ended => exact ⟨0, _, o, rfl, Nat.le_add_right .., Nat.zero_le _⟩
  | abandoned => exact ⟨0, _, o, rfl, Nat.le_add_right .., Nat.zero_le _⟩

/-- A pull gives control back within `n` polls exactly when the body has stopped, or lets the loop leave on one of its
next `n` answers. -/
theorem givesBack_iff (o : Outgoing ε) (n : ℕ) :
    GivesBack o n ↔ o.stopped.isSome = true ∨ ∃ k < n, (o.body (o.polled + k)).leaves = true := by
  cases hstopped : o.stopped with
  | some stopped => exact ⟨fun _ => .inl rfl, fun _ => givesBack_of_stopped hstopped n⟩
  | none =>
    constructor
    · intro h
      exact .inr (h.leaves hstopped)
    · intro h
      obtain ⟨k, hk, hleaves⟩ := h.resolve_left (by simp)
      exact givesBack_of_leaves hstopped hk hleaves

/-- A body that is ready with one frame again and again. -/
def endless (frame : Frame) : Outgoing Unit := .new fun _ => .frame frame

theorem not_givesBack_endless {frame : Frame} (h : (PollFrame.frame frame : PollFrame Unit).leaves = false) :
    ¬∃ n, GivesBack (endless frame) n := by
  rintro ⟨n, hgives⟩
  obtain ⟨k, -, hleaves⟩ := hgives.leaves rfl
  exact absurd (h.symm.trans hleaves) Bool.false_ne_true

/-- Data without an end, empty frames or frames of an unknown kind: no number of polls is enough. -/
theorem endless_holds :
    (¬∃ n, GivesBack (endless (.data [7])) n) ∧ (¬∃ n, GivesBack (endless (.data [])) n) ∧
      ¬∃ n, GivesBack (endless .unknown) n :=
  ⟨not_givesBack_endless rfl, not_givesBack_endless rfl, not_givesBack_endless rfl⟩

end Ngnet.Http3BodyPulls
