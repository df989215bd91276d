import Mathlib.Data.List.Induction
import Mathlib.Tactic.Common

/-!
# The connection pool

`pool.rs` of `ngnet-util`, with the part of `connect.rs` that makes a connection. Any number of callers ask for
connections, to any origins, and shut the pool down. A section under one of the two locks is one step, and so is
each access to a `watch`; between them the calls interleave, and a call that waits can be dropped.

An error of a dial is shared behind an `Arc`: it is known by the number of its dial. The generation of a slot and
the numbers of the dials count without end. Beside the fields of the source a pool carries every slot and every
connection it ever had, and each caller what it dialled and which dials it was told to wait for.
-/

namespace Ngnet.OriginPool

variable {ο ε : Type}

/-- What the handles of a connection say of it, and whether its driver task has ended. -/
structure Conn where
  isClosed : Bool := false
  isRefusing : Bool := false
  ended : Bool := false
  deriving DecidableEq, Repr

/-- Whether a handle is fit to be handed out. -/
def Conn.eligible (conn : Conn) : Bool := !conn.isClosed && !conn.isRefusing

inductive Error (ε : Type)
  | dial (number : ℕ) (cause : ε)
  | shutDown
  deriving DecidableEq, Repr

inductive Dial (ε : Type)
  | idle
  | dialing (number : ℕ)
  | ready (conn : ℕ)
  | failed (number : ℕ) (cause : ε)
  deriving DecidableEq, Repr

namespace Dial

/-- The dial that is under way, or that failed last. -/
def number : Dial ε → Option ℕ
  | .dialing number => some number
  | .failed number _ => some number
  | _ => none

def isFailed : Dial ε → Bool
  | .failed _ _ => true
  | _ => false

end Dial

structure Slot (ε : Type) where
  state : Dial ε := .idle
  settled : ℕ := 0
  deriving DecidableEq, Repr

/-- A handle, with what it was seen to say when it was chosen, unless its caller has just dialled it. -/
structure Handed where
  conn : ℕ
  seen : Option Conn
  deriving DecidableEq, Repr

/-- Where a call of `acquire` stands. It has no result if it was dropped. -/
inductive Stage (ε : Type)
  | entering
  | registered
  | deciding (slot : ℕ) (waited : Bool)
  | told (slot generation : ℕ)
  | subscribed (slot generation : ℕ)
  | parked (slot generation : ℕ) (woken : Bool)
  | connecting (slot number : ℕ)
  | connected (slot number conn : ℕ)
  | filed (slot number conn : ℕ) (closed : Bool)
  | failing (slot number : ℕ) (cause : ε)
  | dropping (slot number : ℕ)
  | leaving (result : Option (Except (Error ε) Handed))
  | over (result : Option (Except (Error ε) Handed))

namespace Stage

def slot : Stage ε → Option ℕ
  | .deciding slot _ | .told slot _ | .subscribed slot _ | .parked slot _ _ => some slot
  | .connecting slot _ | .connected slot _ _ | .filed slot _ _ _ => some slot
  | .failing slot _ _ | .dropping slot _ => some slot
  | _ => none

/-- The slot and the number of the dial that the call has claimed and not settled. -/
def dial : Stage ε → Option (ℕ × ℕ)
  | .connecting slot number | .connected slot number _ | .filed slot number _ _ => some (slot, number)
  | .failing slot number _ | .dropping slot number => some (slot, number)
  | _ => none

/-- The slot and the generation that the call waits to see replaced. -/
def waits : Stage ε → Option (ℕ × ℕ)
  | .told slot generation | .subscribed slot generation | .parked slot generation _ => some (slot, generation)
  | _ => none

/-- Whether the call holds an `AcquireGuard`. -/
def counted : Stage ε → Bool
  | .entering | .over _ => false
  | _ => true

def result : Stage ε → Option (Except (Error ε) Handed)
  | .leaving result | .over result => result
  | _ => none

/-- A waiter of this slot is woken. -/
def ring (slot : ℕ) : Stage ε → Stage ε
  | .parked slot' generation woken => .parked slot' generation (woken || slot' == slot)
  | stage => stage

end Stage

/-- A dial that a caller began: whether it had waited before, and what it found in the slot. -/
structure Begun (ε : Type) where
  number : ℕ
  waited : Bool
  found : Dial ε

structure Caller (ο ε : Type) where
  origin : ο
  stage : Stage ε := .entering
  begun : List (Begun ε) := []
  /-- The dials that were under way when it was told to wait. -/
  awaited : List ℕ := []

/-- Where a call of `shutdown` stands. -/
inductive Shutdown
  | calling
  | elected
  | waiting
  | resolved
  | dropped
  deriving DecidableEq, Repr

/-- Where the task that runs `drain` stands. -/
inductive Drain
  | waiting
  | taking
  | winding (slots drivers : List ℕ)
  | awaiting (drivers : List ℕ)
  | done
  deriving DecidableEq, Repr

structure Pool (ο ε : Type) where
  connections : List (ο × ℕ) := []
  drivers : List ℕ := []
  closed : Bool := false
  acquires : ℕ := 0
  acquiresWatch : ℕ := 0
  finished : Bool := false
  slots : List (Slot ε) := []
  conns : List Conn := []
  callers : List (Caller ο ε) := []
  shutdowns : List Shutdown := []
  drains : List Drain := []
  dials : ℕ := 0
  failures : List (ℕ × ε) := []

namespace Pool

def slot (pool : Pool ο ε) (s : ℕ) : Slot ε := pool.slots[s]?.getD {}

def conn (pool : Pool ο ε) (c : ℕ) : Conn := pool.conns[c]?.getD {}

/-- The stage of a caller changes. -/
def move (pool : Pool ο ε) (i : ℕ) (stage : Stage ε) : Pool ο ε :=
  { pool with callers := pool.callers.modify i fun caller => { caller with stage } }

/-- `Slot::settle`: a new state, and the bell. -/
def settle (pool : Pool ο ε) (s : ℕ) (state : Dial ε) : Pool ο ε :=
  { pool with
    slots := pool.slots.modify s fun slot => { state, settled := slot.settled + 1 }
    callers := pool.callers.map fun caller => { caller with stage := caller.stage.ring s } }

/-- `SendRequest::shutdown`. -/
def shutDownConn (pool : Pool ο ε) (c : ℕ) : Pool ο ε :=
  { pool with conns := pool.conns.modify c fun conn => { conn with isRefusing := true } }

/-! ## `acquire` -/

section Acquire
variable [DecidableEq ο]

/-- `AcquireGuard::register`. -/
def register (pool : Pool ο ε) (i : ℕ) : Pool ο ε :=
  if pool.closed then pool.move i (.over (some (.error .shutDown)))
  else { pool with acquires := pool.acquires + 1, acquiresWatch := pool.acquires + 1 }.move i .registered

def slotFor (pool : Pool ο ε) (i : ℕ) (origin : ο) : Pool ο ε :=
  if pool.closed then pool.move i (.leaving (some (.error .shutDown)))
  else
    match pool.connections.lookup origin with
    | some s => pool.move i (.deciding s false)
    | none =>
      { pool with
        connections := pool.connections ++ [(origin, pool.slots.length)]
        slots := pool.slots ++ [({} : Slot ε)] }.move i (.deciding pool.slots.length false)

/-- The slot is claimed for a dial, which is the caller's to settle. The bell is not rung. -/
def claim (pool : Pool ο ε) (i s : ℕ) (waited : Bool) : Pool ο ε :=
  { pool with
    dials := pool.dials + 1
    slots := pool.slots.modify s fun slot => { slot with state := .dialing pool.dials }
    callers := pool.callers.modify i fun caller =>
      { caller with
        stage := .connecting s pool.dials
        begun := caller.begun ++ [⟨pool.dials, waited, (pool.slot s).state⟩] } }

/-- One pass of the loop of `acquire`, under the lock of the slot. -/
def decide (pool : Pool ο ε) (i s : ℕ) (waited : Bool) : Pool ο ε :=
  match (pool.slot s).state with
  | .ready c =>
    if (pool.conn c).isClosed || (pool.conn c).isRefusing then pool.claim i s waited
    else pool.move i (.leaving (some (.ok ⟨c, some (pool.conn c)⟩)))
  | .failed number cause =>
    if waited then pool.move i (.leaving (some (.error (.dial number cause))))
    else pool.claim i s waited
  | .idle => pool.claim i s waited
  | .dialing number =>
    { pool with
      callers := pool.callers.modify i fun caller =>
        { caller with
          stage := .told s (pool.slot s).settled
          awaited := caller.awaited ++ [number] } }

/-- `wait_for` looks at the generation. -/
def look (pool : Pool ο ε) (i s generation : ℕ) : Pool ο ε :=
  if (pool.slot s).settled ≠ generation then pool.move i (.deciding s true)
  else pool.move i (.parked s generation false)

/-- The driver of a fresh connection is filed with the pool, closed or not. -/
def file (pool : Pool ο ε) (i s number c : ℕ) : Pool ο ε :=
  { pool with drivers := pool.drivers.filter (fun d => !(pool.conn d).ended) ++ [c] }.move i
    (.filed s number c pool.closed)

/-- The end of `dial_into` behind a connect that succeeded. -/
def publish (pool : Pool ο ε) (i s c : ℕ) (closed : Bool) : Pool ο ε :=
  if closed then ((pool.shutDownConn c).settle s .idle).move i (.leaving (some (.error .shutDown)))
  else (pool.settle s (.ready c)).move i (.leaving (some (.ok ⟨c, none⟩)))

/-- The drop of the `AcquireGuard`, with which the call ends. -/
def release (pool : Pool ο ε) (i : ℕ) (result : Option (Except (Error ε) Handed)) : Pool ο ε :=
  { pool with acquires := pool.acquires - 1, acquiresWatch := pool.acquires - 1 }.move i (.over result)

/-- The next section of a call that does not wait for anything. -/
def advance (pool : Pool ο ε) (i : ℕ) : Pool ο ε :=
  match pool.callers[i]? with
  | none => pool
  | some caller =>
    match caller.stage with
    | .entering => pool.register i
    | .registered => pool.slotFor i caller.origin
    | .deciding s waited => pool.decide i s waited
    | .told s generation => pool.move i (.subscribed s generation)
    | .subscribed s generation => pool.look i s generation
    | .parked s generation woken => if woken then pool.look i s generation else pool
    | .connecting _ _ => pool
    | .connected s number c => pool.file i s number c
    | .filed s _ c closed => pool.publish i s c closed
    | .failing s number cause =>
      (pool.settle s (.failed number cause)).move i (.leaving (some (.error (.dial number cause))))
    | .dropping s _ => (pool.settle s .idle).move i (.leaving none)
    | .leaving result => pool.release i result
    | .over _ => pool

/-- `dial` returns. With a connection, its driver has been spawned. -/
def connect (pool : Pool ο ε) (i : ℕ) (outcome : Except ε Unit) : Pool ο ε :=
  match pool.callers[i]? with
  | none => pool
  | some caller =>
    match caller.stage, outcome with
    | .connecting s number, .ok () =>
      { pool with conns := pool.conns ++ [({} : Conn)] }.move i (.connected s number pool.conns.length)
    | .connecting s number, .error cause =>
      { pool with failures := pool.failures ++ [(number, cause)] }.move i (.failing s number cause)
    | _, _ => pool

/-- The future of a call is dropped where it waits. -/
def cancel (pool : Pool ο ε) (i : ℕ) : Pool ο ε :=
  match pool.callers[i]? with
  | none => pool
  | some caller =>
    match caller.stage with
    | .connecting s number => pool.move i (.dropping s number)
    | .parked _ _ _ => pool.move i (.leaving none)
    | _ => pool

/-! ## `shutdown` -/

def advanceShutdown (pool : Pool ο ε) (j : ℕ) : Pool ο ε :=
  match pool.shutdowns[j]? with
  | some .calling =>
    { pool with
      closed := true
      shutdowns := pool.shutdowns.set j (if pool.closed then .waiting else .elected) }
  | some .elected =>
    { pool with
      drains := pool.drains ++ [.waiting]
      shutdowns := pool.shutdowns.set j .waiting }
  | some .waiting => if pool.finished then { pool with shutdowns := pool.shutdowns.set j .resolved } else pool
  | _ => pool

def cancelShutdown (pool : Pool ο ε) (j : ℕ) : Pool ο ε :=
  match pool.shutdowns[j]? with
  | some .waiting => { pool with shutdowns := pool.shutdowns.set j .dropped }
  | _ => pool

/-- The next step of a drain, but for the slots, which it may take in any order. -/
def advanceDrain (pool : Pool ο ε) (k : ℕ) : Pool ο ε :=
  match pool.drains[k]? with
  | some .waiting =>
    if pool.acquiresWatch = 0 then { pool with drains := pool.drains.set k .taking } else pool
  | some .taking =>
    { pool with
      connections := []
      drivers := []
      drains := pool.drains.set k (.winding (pool.connections.map (·.2)) pool.drivers) }
  | some (.winding [] drivers) => { pool with drains := pool.drains.set k (.awaiting drivers) }
  | some (.awaiting (d :: drivers)) =>
    if (pool.conn d).ended then { pool with drains := pool.drains.set k (.awaiting drivers) } else pool
  | some (.awaiting []) => { pool with finished := true, drains := pool.drains.set k .done }
  | _ => pool

/-- The handle of a slot is taken, and its connection told to go away. -/
def windDown (pool : Pool ο ε) (s : ℕ) : Pool ο ε :=
  let taken := { pool with slots := pool.slots.modify s fun slot => { slot with state := .idle } }
  match (pool.slot s).state with
  | .ready c => taken.shutDownConn c
  | _ => taken

/-- A drain takes one of the slots. -/
def wind (pool : Pool ο ε) (k s : ℕ) : Pool ο ε :=
  match pool.drains[k]? with
  | some (.winding slots drivers) =>
    if s ∈ slots then
      { pool.windDown s with drains := pool.drains.set k (.winding (slots.filter (· ≠ s)) drivers) }
    else pool
  | _ => pool

end Acquire

end Pool

/-! ## Runs -/

inductive Action (ο ε : Type)
  | call (origin : ο)
  | advance (i : ℕ)
  | connect (i : ℕ) (outcome : Except ε Unit)
  | cancel (i : ℕ)
  | shutdown
  | advanceShutdown (j : ℕ)
  | cancelShutdown (j : ℕ)
  | advanceDrain (k : ℕ)
  | wind (k s : ℕ)
  | connClosed (c : ℕ)
  | connRefuses (c : ℕ)
  | driverEnds (c : ℕ)

section Runs
variable [DecidableEq ο]

def step (pool : Pool ο ε) : Action ο ε → Pool ο ε
  | .call origin => { pool with callers := pool.callers ++ [{ origin }] }
  | .advance i => pool.advance i
  | .connect i outcome => pool.connect i outcome
  | .cancel i => pool.cancel i
  | .shutdown => { pool with shutdowns := pool.shutdowns ++ [.calling] }
  | .advanceShutdown j => pool.advanceShutdown j
  | .cancelShutdown j => pool.cancelShutdown j
  | .advanceDrain k => pool.advanceDrain k
  | .wind k s => pool.wind k s
  | .connClosed c => { pool with conns := pool.conns.modify c fun conn => { conn with isClosed := true } }
  | .connRefuses c => pool.shutDownConn c
  | .driverEnds c => { pool with conns := pool.conns.modify c fun conn => { conn with ended := true } }

/-- The pool behind a run, from a fresh one. -/
def reached (actions : List (Action ο ε)) : Pool ο ε := actions.foldl step {}

theorem reached_append (actions more : List (Action ο ε)) :
    reached (actions ++ more) = more.foldl step (reached actions) := by
  simp [reached]

theorem invariant_reached {I : Pool ο ε → Prop} (hinit : I {}) (hstep : ∀ pool action, I pool → I (step pool action))
    (actions : List (Action ο ε)) : I (reached actions) := by
  induction actions using List.reverseRecOn with
  | nil => exact hinit
  | append_singleton actions action ih =>
    rw [reached_append]
    exact hstep _ _ ih

end Runs

end Ngnet.OriginPool
