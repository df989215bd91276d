import Ngnet.OperationTraces
import Ngnet.QuicEndpointDriver

/-!
# What the driver of an endpoint performs

The driver takes its dials, the commands of a connection and the connections that are done in batches. A
protocol that follows one of these batches is checked on the program that works it off; the rest of the
driver performs routine operations, which keep what is said of such a protocol.
-/

namespace Ngnet.QuicEndpointProtocols
open QmuxVarints InterleavedPrograms QuicEndpoint QuicEndpointDriver
open QmuxConnection (Poll)

variable {κ γ α β : Type} {P : Protocol (Op κ) γ} {I E : γ → Prop}

/-- The protocol allows the operation where `I` holds, and `I` holds behind it. -/
def Plain (P : Protocol (Op κ) γ) (I : γ → Prop) (op : Op κ β) : Prop :=
  ∀ k, I k → P.allows k op ∧ ∀ b, I (P.next k op b)

/-- The program takes allowed operations only where `I` holds, and returns where it holds; it fails where `E`
holds. -/
def Keeps (P : Protocol (Op κ) γ) (I E : γ → Prop) (p : DriverM κ α) : Prop :=
  ∀ k, I k → Follows P (fun _ k' => I k') (fun _ k' => E k') p k

theorem keeps_pure {a : α} : Keeps P I E (pure a : DriverM κ α) := fun _ hk => hk

theorem keeps_outOfFuel : Keeps P I E (.outOfFuel : DriverM κ α) := fun _ _ => True.intro

theorem keeps_perform {op : Op κ α} (h : Plain P I op) : Keeps P I E (perform op) :=
  fun k hk => ⟨(h k hk).1, fun b _ => (h k hk).2 b⟩

theorem keeps_bind {p : DriverM κ α} {f : α → DriverM κ β} (hp : Keeps P I E p) (hf : ∀ a, Keeps P I E (f a)) :
    Keeps P I E (p >>= f) := by
  intro k hk
  refine follows_bind.mpr (Follows.mono (hp k hk) ?_ ?_)
  · exact fun a k' hk' => hf a k' hk'
  · exact fun _ _ hk' => hk'

/-- All operations but those that begin a poll, receive, take a batch and work it off, begin a connection for a
packet, rearm the timer and end the driver. -/
def Routine : {β : Type} → Op κ β → Prop
  | _, .await | _, .pollRecv => False
  | _, .drainDials | _, .dial | _, .takeCommands _ | _, .runCommand _ | _, .isDone _ | _, .remove _ => False
  | _, .begin _ _ | _, .rearm | _, .failAll _ | _, .failDials _ | _, .markGone => False
  | _, _ => True

section Programs
variable (h : ∀ {β : Type} (op : Op κ β), Routine op → Plain P I op)
include h

theorem keeps_routine {op : Op κ α} (hop : Routine op) : Keeps P I E (perform op) := keeps_perform (h op hop)

theorem keeps_absorb (index : ℕ) : Keeps P I E (absorb index : DriverM κ Unit) := by
  rw [absorb]
  refine keeps_bind (keeps_routine h True.intro) fun observed => ?_
  split
  · exact keeps_pure
  refine keeps_bind (keeps_routine h True.intro) fun _ => ?_
  dsimp only
  split
  · refine keeps_bind (keeps_routine h True.intro) fun _ => keeps_bind (keeps_routine h True.intro) fun _ => ?_
    exact keeps_routine h True.intro
  · exact keeps_bind (keeps_routine h True.intro) fun _ => keeps_routine h True.intro

theorem keeps_deliver (index : ℕ) (datagram : Bytes) : Keeps P I E (deliver index datagram : DriverM κ Unit) := by
  rw [deliver]
  refine keeps_bind (keeps_routine h True.intro) fun processed => ?_
  split
  · exact keeps_absorb h index
  · exact keeps_pure

theorem keeps_dispatch (hbegin : ∀ datagram source, Plain P I (.begin datagram source : Op κ (Option ℕ))) (config : Config)
    (datagram : Bytes) (source : Address) : Keeps P I E (dispatch config datagram source : DriverM κ Unit) := by
  rw [dispatch]
  refine keeps_bind (keeps_routine h True.intro) fun routed => ?_
  split
  · exact keeps_deliver h _ datagram
  split
  · exact keeps_pure
  split
  · exact keeps_pure
  refine keeps_bind (keeps_perform (hbegin datagram source)) fun begun => ?_
  split
  · exact keeps_bind (keeps_deliver h _ datagram) fun _ => keeps_routine h True.intro
  · exact keeps_pure

section Stopping
variable (hstop : ∀ {α : Type}, Keeps P I E (stop : DriverM κ α))
include hstop

omit h in
theorem keeps_readDatagrams (hrecv : Plain P I (.pollRecv : Op κ (Poll (Except Unit (Bytes × Address))))) (config : Config)
    (hdispatch : ∀ datagram source, Keeps P I E (dispatch config datagram source : DriverM κ Unit)) (n : ℕ) (progressed : Bool) :
    Keeps P I E (readDatagrams config n progressed : DriverM κ Bool) := by
  induction n generalizing progressed with
  | zero => exact keeps_pure
  | succ n ih =>
    rw [readDatagrams]
    refine keeps_bind (keeps_perform hrecv) fun received => ?_
    split
    · exact keeps_bind (hdispatch _ _) fun _ => ih true
    · exact hstop
    · exact keeps_pure

omit hstop in
theorem keeps_handleExpiry (index : ℕ) : Keeps P I E (QuicEndpointDriver.handleExpiry index : DriverM κ Unit) := by
  rw [QuicEndpointDriver.handleExpiry]
  refine keeps_bind (keeps_routine h True.intro) fun fired => ?_
  split
  · exact keeps_absorb h index
  · exact keeps_pure

omit hstop in
theorem keeps_serviceEach (hcommands : ∀ index, Keeps P I E (applyCommands index : DriverM κ Unit)) (indices : List ℕ) :
    Keeps P I E (serviceEach indices : DriverM κ Unit) := by
  induction indices with
  | nil => exact keeps_pure
  | cons index indices ih =>
    rw [serviceEach]
    refine keeps_bind (keeps_routine h True.intro) fun _ => keeps_bind (hcommands index) fun _ => ?_
    exact keeps_bind (keeps_handleExpiry h index) fun _ => ih

theorem keeps_flushOutbox (fuel : ℕ) : Keeps P I E (flushOutbox fuel : DriverM κ Unit) := by
  induction fuel with
  | zero => exact keeps_outOfFuel
  | succ fuel ih =>
    rw [flushOutbox]
    refine keeps_bind (keeps_routine h True.intro) fun disposition => ?_
    cases disposition with
    | sent => exact ih
    | nothing => exact keeps_pure
    | refused => exact keeps_pure
    | failed => exact hstop

theorem keeps_flushConnection (index fuel : ℕ) : Keeps P I E (flushConnection index fuel : DriverM κ Unit) := by
  induction fuel with
  | zero => exact keeps_outOfFuel
  | succ fuel ih =>
    rw [flushConnection]
    refine keeps_bind (keeps_routine h True.intro) fun disposition => ?_
    cases disposition with
    | sent => exact ih
    | nothing => exact keeps_pure
    | refused => exact keeps_pure
    | failed => exact hstop

theorem keeps_flushEach (fuel : ℕ) (indices : List ℕ) : Keeps P I E (flushEach fuel indices : DriverM κ Unit) := by
  induction indices with
  | nil => exact keeps_pure
  | cons index indices ih =>
    rw [flushEach]
    exact keeps_bind (keeps_flushConnection h hstop index fuel) fun _ => ih

theorem keeps_flush (fuel : ℕ) : Keeps P I E (flush fuel : DriverM κ Unit) := by
  rw [flush]
  refine keeps_bind (keeps_flushOutbox h hstop fuel) fun _ => ?_
  exact keeps_bind (keeps_routine h True.intro) fun indices => keeps_flushEach h hstop fuel indices

theorem keeps_service (hcommands : ∀ index, Keeps P I E (applyCommands index : DriverM κ Unit))
    (hevict : Keeps P I E (evict : DriverM κ Unit)) (fuel : ℕ) : Keeps P I E (service fuel : DriverM κ Unit) := by
  rw [service]
  refine keeps_bind (keeps_routine h True.intro) fun indices => ?_
  exact keeps_bind (keeps_serviceEach h hcommands indices) fun _ => keeps_bind (keeps_flush h hstop fuel) fun _ => hevict

theorem keeps_passes (hdials : Keeps P I E (perform .drainDials >>= dialAll : DriverM κ Unit))
    (hrecv : Plain P I (.pollRecv : Op κ (Poll (Except Unit (Bytes × Address)))))
    (hcommands : ∀ index, Keeps P I E (applyCommands index : DriverM κ Unit))
    (hevict : Keeps P I E (evict : DriverM κ Unit)) (hrearm : Plain P I (.rearm : Op κ Bool)) (config : Config)
    (hdispatch : ∀ datagram source, Keeps P I E (dispatch config datagram source : DriverM κ Unit)) (fuel n : ℕ) :
    Keeps P I E (passes config fuel n : DriverM κ Unit) := by
  induction n with
  | zero => exact keeps_pure
  | succ n ih =>
    rw [passes]
    rw [← bind_assoc]
    refine keeps_bind hdials fun _ => keeps_bind (keeps_readDatagrams hstop hrecv config hdispatch _ _) fun read => ?_
    refine keeps_bind (keeps_service h hstop hcommands hevict fuel) fun _ => ?_
    refine keeps_bind (keeps_perform hrearm) fun fired => ?_
    split
    · exact keeps_pure
    cases fired with
    | true =>
      refine keeps_bind (keeps_routine h True.intro) fun pending => ?_
      exact ih
    | false =>
      refine keeps_bind (keeps_routine h True.intro) fun pending => ?_
      split
      · exact keeps_pure
      · exact ih

theorem keeps_run (hawait : Plain P I (.await : Op κ Unit))
    (hdials : Keeps P I E (perform .drainDials >>= dialAll : DriverM κ Unit))
    (hrecv : Plain P I (.pollRecv : Op κ (Poll (Except Unit (Bytes × Address)))))
    (hcommands : ∀ index, Keeps P I E (applyCommands index : DriverM κ Unit))
    (hevict : Keeps P I E (evict : DriverM κ Unit)) (hrearm : Plain P I (.rearm : Op κ Bool)) (config : Config)
    (hdispatch : ∀ datagram source, Keeps P I E (dispatch config datagram source : DriverM κ Unit)) (fuel n : ℕ) :
    Keeps P I E (run config fuel n : DriverM κ Unit) := by
  induction n with
  | zero => exact keeps_outOfFuel
  | succ n ih =>
    rw [run]
    refine keeps_bind (keeps_perform hawait) fun _ => ?_
    exact keeps_bind (keeps_passes h hstop hdials hrecv hcommands hevict hrearm config hdispatch fuel 8) fun _ => ih

end Stopping

end Programs

theorem keeps_dialAll (hdial : Plain P I (.dial : Op κ Unit)) (n : ℕ) : Keeps P I E (dialAll n : DriverM κ Unit) := by
  induction n with
  | zero => exact keeps_pure
  | succ n ih => exact keeps_bind (keeps_perform hdial) fun _ => ih

theorem keeps_dials (hdrain : Plain P I (.drainDials : Op κ ℕ)) (hdial : Plain P I (.dial : Op κ Unit)) :
    Keeps P I E (perform .drainDials >>= dialAll : DriverM κ Unit) :=
  keeps_bind (keeps_perform hdrain) fun n => keeps_dialAll hdial n

theorem keeps_applyCommands {index : ℕ} (htake : Plain P I (.takeCommands index : Op κ ℕ))
    (hrun : Plain P I (.runCommand index : Op κ Bool)) : Keeps P I E (applyCommands index : DriverM κ Unit) := by
  have hruns : ∀ n, Keeps P I E (runCommands index n : DriverM κ Unit) := by
    intro n
    induction n with
    | zero => exact keeps_pure
    | succ n ih =>
      rw [runCommands]
      refine keeps_bind (keeps_perform hrun) fun more => ?_
      split
      · exact ih
      · exact keeps_pure
  exact keeps_bind (keeps_perform htake) hruns

theorem keeps_evict (hkeys : Plain P I (.keys : Op κ (List ℕ))) (hdone : ∀ index, Plain P I (.isDone index : Op κ Bool))
    (hremove : ∀ index, Plain P I (.remove index : Op κ Unit)) : Keeps P I E (evict : DriverM κ Unit) := by
  have hfind : ∀ indices, Keeps P I E (findDead indices : DriverM κ (List ℕ)) := by
    intro indices
    induction indices with
    | nil => exact keeps_pure
    | cons index indices ih =>
      rw [findDead]
      exact keeps_bind (keeps_perform (hdone index)) fun _ => keeps_bind ih fun _ => keeps_pure
  have hremoves : ∀ dead, Keeps P I E (removeDead dead : DriverM κ Unit) := by
    intro dead
    induction dead with
    | nil => exact keeps_pure
    | cons index dead ih =>
      rw [removeDead]
      exact keeps_bind (keeps_perform (hremove index)) fun _ => ih
  rw [evict]
  exact keeps_bind (keeps_perform hkeys) fun indices => keeps_bind (hfind indices) hremoves

end Ngnet.QuicEndpointProtocols
