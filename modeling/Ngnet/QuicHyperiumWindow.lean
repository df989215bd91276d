import Mathlib.Algebra.BigOperators.Group.Finset.Piecewise
import Ngnet.QuicHyperiumBooks

/-!
# The window that the streams of a native connection share

Credit for the connection is granted where a reader takes a chunk. What is routed to a stream that nobody will read, and
what a stream still holds when its state is discarded or its reader goes, is never granted again. Apart from these the
bytes routed are those granted and those that wait for a reader.
-/

namespace Ngnet.QuicHyperiumWindow
open QmuxVarints QmuxStreams QuicMeters QuicHyperium Histories
open QuicEndpoint (Transport ConnectionShared ConnCall Observed Note)
open QmuxConnection (Poll)
open QmuxRecordWriter (Waker)

variable {κ : Type}

/-! ## Sums over the streams -/

theorem sum_changed {ι : Type} [DecidableEq ι] {S S' : Finset ι} {f g : ι → ℕ} {i : ι} (hsub : S ⊆ S')
    (hout : ∀ j, f j ≠ 0 → j ∈ S) (hi : i ∈ S' ∨ g i = f i) (hother : ∀ j, j ≠ i → g j = f j) :
    ∑ j ∈ S', g j + f i = ∑ j ∈ S, f j + g i := by
  have hwider : ∑ j ∈ S, f j = ∑ j ∈ S', f j := by
    apply Finset.sum_subset hsub
    intro j _ hj
    by_contra hne
    exact hj (hout j hne)
  rw [hwider]
  rcases hi with hi | hsame
  · have hrest : ∑ j ∈ S'.erase i, g j = ∑ j ∈ S'.erase i, f j :=
      Finset.sum_congr rfl fun j hj => hother j (Finset.ne_of_mem_erase hj)
    have hg := Finset.add_sum_erase S' g hi
    have hf := Finset.add_sum_erase S' f hi
    omega
  · have hall : g = f := by
      funext j
      by_cases heq : j = i
      · rw [heq, hsame]
      · exact hother j heq
    rw [hall]

/-! ## The books -/

/-- The bytes of a stream that wait to be read. -/
def held (c : Core κ) (stream : StreamId) : ℕ := (c.state stream).incoming.flatten.length

def dataBytes : Observed → ℕ
  | .data _ bytes _ => bytes.length
  | _ => 0

def bytesOf (stream : StreamId) : Observed → ℕ
  | .data fed bytes _ => if fed = stream then bytes.length else 0
  | _ => 0

def fedStream : Observed → Option StreamId
  | .data stream _ _ => some stream
  | _ => none

def routedBytes (routed : List Observed) : ℕ := (routed.map dataBytes).sum

def arrived (stream : StreamId) (observed : List Observed) : ℕ := (observed.map (bytesOf stream)).sum

def streamsFed (routed : List Observed) : Finset StreamId := (routed.filterMap fedStream).toFinset

/-- The stream waits in an accept queue. -/
def Waits (c : Core κ) (stream : StreamId) : Prop := stream ∈ c.acceptBidi ∨ stream ∈ c.acceptUni

/-- The stream has a receive handle, or one is being constructed. -/
def HasReader (w : World κ) (stream : StreamId) : Prop :=
  (∃ opening ∈ w.opening, opening.stream = stream ∧ Half.recv ∈ opening.made ++ opening.left) ∨ 0 < w.recvs stream

instance (c : Core κ) (stream : StreamId) : Decidable (Waits c stream) := inferInstanceAs (Decidable (_ ∨ _))

instance (w : World κ) (stream : StreamId) : Decidable (HasReader w stream) := inferInstanceAs (Decidable (_ ∨ _))

/-- The bytes queued for streams that have a receive handle or wait in an accept queue. -/
def queued (w : World κ) : ℕ :=
  ∑ stream ∈ streamsFed w.core.routed, if HasReader w stream ∨ Waits w.core stream then held w.core stream else 0

/-- The handles of a stream that there are, or of which the stream knows already. -/
def handlesOf (w : World κ) (stream : StreamId) : ℕ :=
  w.sends stream + w.recvs stream +
    (w.opening.map fun opening => if opening.stream = stream then opening.made.length else 0).sum

/-- The books of a core whose readers and handles are these. -/
structure Books (reader : StreamId → Prop) (handles : StreamId → ℕ) (c : Core (Metered κ)) : Prop where
  balance : routedBytes c.routed = c.conn.offset + ∑ stream ∈ streamsFed c.routed, held c stream
  fed : ∀ stream, held c stream ≠ 0 → stream ∈ streamsFed c.routed
  counted : ∀ stream, (c.state stream).handles = handles stream
  read : ∀ stream, held c stream ≠ 0 → reader stream ∨ Waits c stream

theorem routedBytes_concat (routed : List Observed) (observed : Observed) :
    routedBytes (routed ++ [observed]) = routedBytes routed + dataBytes observed := by
  simp [routedBytes]

theorem arrived_concat (stream : StreamId) (routed : List Observed) (observed : Observed) :
    arrived stream (routed ++ [observed]) = arrived stream routed + bytesOf stream observed := by
  simp [arrived]

theorem streamsFed_concat (routed : List Observed) (observed : Observed) :
    streamsFed routed ⊆ streamsFed (routed ++ [observed]) := by
  intro stream
  simp only [streamsFed, List.filterMap_append, List.mem_toFinset, List.mem_append]
  exact .inl

theorem mem_streamsFed (routed : List Observed) {stream : StreamId} {observed : Observed}
    (h : bytesOf stream observed ≠ 0) : stream ∈ streamsFed (routed ++ [observed]) := by
  cases observed with
  | data fed bytes fin =>
    have heq : fed = stream := by
      by_contra hne
      simp [bytesOf, hne] at h
    simp [streamsFed, fedStream, heq]
  | _ => exact absurd rfl h

theorem sum_bytesOf (routed : List Observed) (observed : Observed) :
    ∑ stream ∈ streamsFed (routed ++ [observed]), bytesOf stream observed = dataBytes observed := by
  cases observed with
  | data fed bytes fin =>
    have hmem : fed ∈ streamsFed (routed ++ [.data fed bytes fin]) := by simp [streamsFed, fedStream]
    simp [bytesOf, dataBytes, hmem]
  | _ => simp [bytesOf, dataBytes]

theorem Books.queued_eq {w : World (Metered κ)} (h : Books (HasReader w) (handlesOf w) w.core) :
    routedBytes w.core.routed = w.core.conn.offset + queued w := by
  rw [h.balance, queued]
  congr 1
  apply Finset.sum_congr rfl
  intro stream _
  split
  · rfl
  · rename_i hnobody
    by_contra hne
    exact hnobody (h.read stream hne)

section Books
variable {reader reader' : StreamId → Prop} {handles handles' : StreamId → ℕ} {c c' : Core (Metered κ)}

theorem held_works {bytes : ℕ} (h : Works bytes c c') (stream : StreamId) : held c' stream = held c stream := by
  rw [held, held, h.incoming]

theorem waits_works {bytes : ℕ} (h : Works bytes c c') (stream : StreamId) : Waits c' stream ↔ Waits c stream := by
  rw [Waits, Waits, h.acceptBidi, h.acceptUni]

theorem Books.works (h : Books reader handles c) (hworks : Works 0 c c') : Books reader handles c' := by
  have hheld := held_works hworks
  constructor
  · simp only [hheld, hworks.routed, hworks.goes.offset, h.balance, Nat.add_zero]
  · intro stream hne
    rw [hworks.routed]
    exact h.fed stream (by rwa [← hheld])
  · intro stream
    rw [hworks.handles, h.counted]
  · intro stream hne
    rw [waits_works hworks]
    exact h.read stream (by rwa [← hheld])

theorem Books.told (h : Books reader handles c)
    (hreader : ∀ stream, held c stream ≠ 0 → reader stream → reader' stream ∨ Waits c stream)
    (hhandles : ∀ stream, handles' stream = handles stream) : Books reader' handles' c := by
  constructor
  · exact h.balance
  · exact h.fed
  · exact fun stream => (h.counted stream).trans (hhandles stream).symm
  · exact fun stream hne => (h.read stream hne).elim (hreader stream hne) .inr

theorem Books.replace (h : Books reader handles c) (stream : StreamId) (state : Option StreamState)
    (hheld : (state.getD {}).incoming.flatten.length = held c stream)
    (hhandles : ∀ other, handles' other = if other = stream then (state.getD {}).handles else handles other) :
    Books reader handles' { c with streams := Function.update c.streams stream state } := by
  have hstate : ∀ other, ({ c with streams := Function.update c.streams stream state } : Core (Metered κ)).state other =
      if other = stream then state.getD {} else c.state other := by
    intro other
    simp only [Core.state, Function.update_apply]
    split <;> rfl
  have hsame : ∀ other, held { c with streams := Function.update c.streams stream state } other = held c other := by
    intro other
    rw [held, hstate]
    split
    · rename_i heq
      rw [heq, hheld]
    · rfl
  constructor
  · simp only [hsame]
    exact h.balance
  · intro other hne
    exact h.fed other (by rwa [← hsame])
  · intro other
    rw [hstate, hhandles]
    split
    · rfl
    · exact h.counted other
  · intro other hne
    exact h.read other (by rwa [← hsame])

theorem Books.take (h : Books reader handles c) {stream : StreamId} {chunk : Bytes} {rest : List Bytes}
    (hincoming : (c.state stream).incoming = chunk :: rest)
    (hworks : Works chunk.length (c.modifyState stream fun s => { s with incoming := rest }) c') :
    Books reader handles c' := by
  have hstream : held c' stream + chunk.length = held c stream := by
    rw [held_works hworks, held, held, state_modifyState, if_pos rfl, hincoming, List.flatten_cons, List.length_append]
    exact Nat.add_comm _ _
  have hother : ∀ other, other ≠ stream → held c' other = held c other := by
    intro other hne
    rw [held_works hworks, held, held, state_modifyState, if_neg hne]
  have hless : ∀ other, held c' other ≠ 0 → held c other ≠ 0 := by
    intro other hne
    by_cases heq : other = stream
    · subst heq
      omega
    · rwa [← hother other heq]
  have hrouted : c'.routed = c.routed := hworks.routed
  constructor
  · have hfed : stream ∈ streamsFed c.routed ∨ held c' stream = held c stream := by
      by_cases hzero : held c stream = 0
      · exact .inr (by omega)
      · exact .inl (h.fed stream hzero)
    have hsum := sum_changed (Finset.Subset.refl (streamsFed c.routed)) h.fed hfed hother
    have hbalance := h.balance
    have hoffset : c'.conn.offset = c.conn.offset + chunk.length := hworks.goes.offset
    rw [hrouted, hoffset]
    omega
  · intro other hne
    rw [hrouted]
    exact h.fed other (hless other hne)
  · intro other
    rw [hworks.handles, state_modifyState]
    split
    · rename_i heq
      rw [← h.counted, heq]
    · exact h.counted other
  · intro other hne
    rw [waits_works hworks]
    exact h.read other (hless other hne)

theorem Books.retain (h : Books reader handles c) (stream : StreamId)
    (hhandles : ∀ other, handles' other = handles other + if other = stream then 1 else 0) :
    Books reader handles' (c.retainHandle stream) := by
  refine h.replace stream (some { c.state stream with handles := (c.state stream).handles + 1 }) rfl fun other => ?_
  rw [hhandles]
  split
  · rename_i heq
    rw [heq, ← h.counted]
    rfl
  · rfl

theorem Books.release (h : Books reader handles c) {stream : StreamId} (hpos : 0 < handles stream)
    (hdrained : handles stream = 1 → held c stream = 0)
    (hhandles : ∀ other, handles' other = handles other - if other = stream then 1 else 0) :
    Books reader handles' (c.releaseHandle stream).2 := by
  have hcounted := h.counted stream
  simp only [Core.releaseHandle]
  split
  · rename_i hnone
    rw [Core.state, hnone] at hcounted
    exact absurd hcounted.symm (Nat.ne_of_gt hpos)
  · rename_i state hstate
    have hheld : held c stream = state.incoming.flatten.length := by rw [held, Core.state, hstate]; rfl
    rw [Core.state, hstate] at hcounted
    replace hcounted : state.handles = handles stream := hcounted
    split
    · rename_i hlast
      refine h.replace stream none (hdrained (by omega)).symm fun other => ?_
      rw [hhandles]
      split
      · rename_i heq
        rw [heq, ← hcounted]
        exact hlast
      · rfl
    · refine h.replace stream (some { state with handles := state.handles - 1 }) hheld.symm fun other => ?_
      rw [hhandles]
      split
      · rename_i heq
        rw [heq, ← hcounted]
        rfl
      · rfl

end Books

/-! ## Routing -/

/-- An observation does no harm: bytes come for a stream that somebody reads or will accept, and a stream that is closed
without a handle holds none. -/
def Heeds (w : World κ) (before : List Observed) : Observed → Prop
  | .data stream bytes _ => bytes = [] ∨ HasReader w stream ∨ Waits w.core stream ∨
    (stream.initiator ≠ w.core.initiator ∧ .opened stream ∈ before)
  | .closed stream _ _ => (w.core.state stream).handles = 0 → held w.core stream = 0 ∧ arrived stream before = 0
  | _ => True

/-- A pass over the core of `w` that has routed `before`. -/
structure Passing (w : World (Metered κ)) (before : List Observed) (c : Core (Metered κ)) : Prop where
  books : Books (HasReader w) (handlesOf w) c
  opened : ∀ stream, stream.initiator ≠ w.core.initiator → .opened stream ∈ before → Waits c stream
  waits : ∀ stream, Waits w.core stream → Waits c stream
  bounded : ∀ stream, held c stream ≤ held w.core stream + arrived stream before
  counted : ∀ stream, (w.core.state stream).handles = handlesOf w stream

section Routing
variable {w : World (Metered κ)} {before : List Observed} {c c' : Core (Metered κ)}

theorem Passing.works (h : Passing w before c) (hworks : Works 0 c c') : Passing w before c' := by
  constructor
  · exact h.books.works hworks
  · exact fun stream hpeer hopened => (waits_works hworks stream).mpr (h.opened stream hpeer hopened)
  · exact fun stream hwaits => (waits_works hworks stream).mpr (h.waits stream hwaits)
  · intro stream
    rw [held_works hworks]
    exact h.bounded stream
  · exact h.counted

theorem Passing.route (h : Passing w before c) {observed : Observed} (hrouted : c'.routed = c.routed ++ [observed])
    (hoffset : c'.conn.offset = c.conn.offset)
    (hhandles : ∀ stream, (c'.state stream).handles = (c.state stream).handles)
    (hheld : ∀ stream, held c' stream = held c stream + bytesOf stream observed)
    (hread : ∀ stream, bytesOf stream observed ≠ 0 → HasReader w stream ∨ Waits c stream)
    (hwaits : ∀ stream, Waits c stream → Waits c' stream)
    (hopens : ∀ stream, stream.initiator ≠ w.core.initiator → observed = .opened stream → Waits c' stream) :
    Passing w (before ++ [observed]) c' := by
  have hfed := streamsFed_concat c.routed observed
  constructor
  · constructor
    · have hbefore : ∑ stream ∈ streamsFed c.routed, held c stream =
          ∑ stream ∈ streamsFed (c.routed ++ [observed]), held c stream := by
        apply Finset.sum_subset hfed
        intro stream _ hnew
        by_contra hne
        exact hnew (h.books.fed stream hne)
      have hbalance := h.books.balance
      have hbytes := sum_bytesOf c.routed observed
      simp only [hrouted, hheld, hoffset, routedBytes_concat, Finset.sum_add_distrib]
      omega
    · intro stream hne
      rw [hheld] at hne
      rw [hrouted]
      by_cases hzero : held c stream = 0
      · exact mem_streamsFed c.routed (by omega)
      · exact hfed (h.books.fed stream hzero)
    · exact fun stream => (hhandles stream).trans (h.books.counted stream)
    · intro stream hne
      rw [hheld] at hne
      have hsomebody : HasReader w stream ∨ Waits c stream := by
        by_cases hzero : held c stream = 0
        · exact hread stream (by omega)
        · exact h.books.read stream hzero
      exact hsomebody.imp_right (hwaits stream)
  · intro stream hpeer hopened
    rcases List.mem_append.mp hopened with hopened | hopened
    · exact hwaits stream (h.opened stream hpeer hopened)
    · exact hopens stream hpeer (List.mem_singleton.mp hopened).symm
  · exact fun stream hwaiting => hwaits stream (h.waits stream hwaiting)
  · intro stream
    have hbounded := h.bounded stream
    rw [hheld, arrived_concat]
    omega
  · exact h.counted

theorem handles_routeOne (c : Core κ) (changed : Changed) (observed : Observed) (stream : StreamId) :
    ((c.routeOne changed observed).2.state stream).handles = (c.state stream).handles := by
  have hmodified : ∀ (c : Core κ) fed f, (∀ s : StreamState, (f s).handles = s.handles) →
      ((c.modifyState fed f).state stream).handles = (c.state stream).handles := by
    intro c fed f hf
    rw [state_modifyState]
    split
    · rename_i heq
      rw [hf, heq]
    · rfl
  cases observed with
  | data fed bytes fin => exact hmodified _ fed (fun s => { s with incoming := _, finished := _ }) fun _ => rfl
  | opened fed => exact congrArg StreamState.handles (state_recordOpened _ fed stream)
  | reset fed code => exact hmodified _ fed (fun s => { s with recvTerminal := _ }) fun _ => rfl
  | stopSending fed code => exact hmodified _ fed (fun s => { s with sendTerminal := _, writing := _ }) fun _ => rfl
  | closed fed receiving sending =>
    simp only [Core.routeOne]
    split
    · rename_i hlast
      simp only [Core.state, Function.update_apply]
      split
      · rename_i heq
        obtain ⟨state, hstate, hzero⟩ := Option.any_eq_true _ _ |>.mp hlast
        simp only [decide_eq_true_eq] at hzero
        rw [heq, hstate]
        exact hzero.symm
      · rfl
    · rfl
  | _ => rfl

theorem routed_routeOne (c : Core κ) (changed : Changed) (observed : Observed) :
    (c.routeOne changed observed).2.routed = c.routed ++ [observed] := by
  cases observed with
  | opened stream => exact (recordOpened_frame { c with routed := c.routed ++ [.opened stream] } stream).2.2.2
  | closed stream receiving sending =>
    simp only [Core.routeOne]
    split <;> rfl
  | _ => rfl

theorem initiator_routeOne (c : Core κ) (changed : Changed) (observed : Observed) :
    (c.routeOne changed observed).2.initiator = c.initiator := by
  cases observed with
  | opened stream => exact (recordOpened_frame { c with routed := c.routed ++ [.opened stream] } stream).2.2.1
  | closed stream receiving sending =>
    simp only [Core.routeOne]
    split <;> rfl
  | _ => rfl

theorem passing_routeOne (h : Passing w before c) (hself : c.initiator = w.core.initiator) (changed : Changed)
    {observed : Observed} (hheeds : Heeds w before observed) :
    Passing w (before ++ [observed]) (c.routeOne changed observed).2 := by
  have hhandles := handles_routeOne c changed observed
  cases observed with
  | data stream bytes fin =>
    refine h.route rfl rfl hhandles ?_ ?_ (fun _ hwaits => hwaits) (by simp)
    · intro other
      rw [held, Core.routeOne, state_modifyState]
      split
      · rename_i heq
        subst heq
        cases bytes <;> simp [held, bytesOf, Core.state]
      · rename_i hne
        simp [held, bytesOf, Core.state, Ne.symm hne]
    · intro other hne
      have heq : stream = other := by
        by_contra hother
        simp [bytesOf, hother] at hne
      subst heq
      rcases hheeds with hempty | hreader | hwaits | ⟨hpeer, hopened⟩
      · simp [bytesOf, hempty] at hne
      · exact .inl hreader
      · exact .inr (h.waits stream hwaits)
      · exact .inr (h.opened stream hpeer hopened)
  | opened stream =>
    obtain ⟨hbidi, huni⟩ := recordOpened_queues { c with routed := c.routed ++ [.opened stream] } stream
    obtain ⟨hconn, -, -, hrouted⟩ := recordOpened_frame { c with routed := c.routed ++ [.opened stream] } stream
    have hstate := state_recordOpened { c with routed := c.routed ++ [.opened stream] } stream
    refine h.route hrouted (congrArg Metered.offset hconn) hhandles (fun other => ?_) (fun other hne => absurd rfl hne) ?_ ?_
    · rw [held, Core.routeOne, hstate]
      rfl
    · rintro other (hwaits | hwaits)
      · exact .inl (by rw [Core.routeOne, hbidi]; exact List.mem_append_left _ hwaits)
      · exact .inr (by rw [Core.routeOne, huni]; exact List.mem_append_left _ hwaits)
    · rintro other hpeer ⟨⟩
      rw [← hself] at hpeer
      cases hkind : stream.directionality with
      | bidirectional => exact .inl (by rw [Core.routeOne, hbidi]; simp [peers, hpeer, hkind])
      | unidirectional => exact .inr (by rw [Core.routeOne, huni]; simp [peers, hpeer, hkind])
  | closed stream receiving sending =>
    have hqueues : ∀ other, Waits (c.routeOne changed (.closed stream receiving sending)).2 other ↔ Waits c other := by
      intro other
      simp only [Core.routeOne]
      split <;> exact Iff.rfl
    refine h.route ?_ ?_ hhandles (fun other => ?_) (fun other hne => absurd rfl hne) (fun other => (hqueues other).mpr)
      (by simp)
    · simp only [Core.routeOne]
      split <;> rfl
    · simp only [Core.routeOne]
      split <;> rfl
    · simp only [bytesOf, Nat.add_zero]
      simp only [Core.routeOne]
      split
      · rename_i hlast
        obtain ⟨state, hstate, hzero⟩ := Option.any_eq_true _ _ |>.mp hlast
        simp only [decide_eq_true_eq] at hzero
        have hnobody : (c.state stream).handles = 0 := by rw [Core.state, hstate]; exact hzero
        obtain ⟨hnone, hnothing⟩ := hheeds (by rwa [h.counted, ← h.books.counted])
        have hbounded := h.bounded stream
        have hdrained : held c stream = 0 := by omega
        simp only [held, Core.state, Function.update_apply] at hdrained ⊢
        split
        · rename_i heq
          rw [heq, hdrained]
          rfl
        · rfl
      · rfl
  | reset stream code =>
    have htouched := works_modifyState { c with routed := c.routed ++ [.reset stream code] } stream
      (fun s => { s with recvTerminal := some (.reset code) }) (fun _ => rfl) fun _ => rfl
    exact h.route rfl rfl hhandles (fun other => held_works htouched other) (fun _ hne => absurd rfl hne)
      (fun _ hwaits => hwaits) (by simp)
  | stopSending stream code =>
    have htouched := works_modifyState { c with routed := c.routed ++ [.stopSending stream code] } stream
      (fun s => { s with sendTerminal := some (.stopped code), writing := none }) (fun _ => rfl) fun _ => rfl
    exact h.route rfl rfl hhandles (fun other => held_works htouched other) (fun _ hne => absurd rfl hne)
      (fun _ hwaits => hwaits) (by simp)
  | _ => exact h.route rfl rfl hhandles (fun _ => rfl) (fun _ hne => absurd rfl hne) (fun _ hwaits => hwaits) (by simp)

/-- The core has come here from the one of `w` in a pass; if it routed nothing harmful, its books are in order. -/
def Passed (w : World (Metered κ)) (c : Core (Metered κ)) : Prop :=
  ∃ before, c.routed = w.core.routed ++ before ∧ c.initiator = w.core.initiator ∧
    (AtEach (Heeds w) before → Passing w before c)

theorem passed_self (h : Books (HasReader w) (handlesOf w) w.core) : Passed w w.core := by
  refine ⟨[], by simp, rfl, fun _ => ⟨h, fun _ _ hopened => (List.not_mem_nil hopened).elim, fun _ hwaits => hwaits,
    fun stream => Nat.le_add_right _ _, h.counted⟩⟩

theorem Passed.works (h : Passed w c) (hworks : Works 0 c c') : Passed w c' := by
  obtain ⟨before, hrouted, hself, hpassing⟩ := h
  exact ⟨before, hworks.routed.trans hrouted, hworks.initiator.trans hself, fun hheeds => (hpassing hheeds).works hworks⟩

theorem passed_routeOne (h : Passed w c) (changed : Changed) (observed : Observed) :
    Passed w (c.routeOne changed observed).2 := by
  obtain ⟨before, hrouted, hself, hpassing⟩ := h
  refine ⟨before ++ [observed], ?_, ?_, fun hheeds => ?_⟩
  · rw [routed_routeOne, hrouted, List.append_assoc]
  · rw [initiator_routeOne, hself]
  · obtain ⟨hbefore, hone⟩ := atEach_concat.mp hheeds
    exact passing_routeOne (hpassing hbefore) hself changed hone

theorem passed_routeEach (observed : List Observed) (h : Passed w c) (changed : Changed) :
    Passed w (c.routeEach changed observed).2 := by
  induction observed generalizing c changed with
  | nil => exact h
  | cons first observed ih => exact ih (passed_routeOne h changed first) _

theorem passed_routeObserved (h : Passed w c) (changed : Changed) : Passed w (c.routeObserved changed).2 := by
  apply passed_routeEach
  obtain ⟨before, hrouted, hself, hpassing⟩ := h
  refine ⟨before, hrouted, hself, fun hheeds => ?_⟩
  have hp := hpassing hheeds
  exact ⟨⟨hp.books.balance, hp.books.fed, hp.books.counted, hp.books.read⟩, hp.opened, hp.waits, hp.bounded, hp.counted⟩

theorem passed_pump [Transport κ] (h : Books (HasReader w) (handlesOf w) w.core) : Passed w w.core.pump.2 :=
  keeps_pump (P := Passed w) (fun _ _ hworks h => h.works hworks) (fun _ changed h => passed_routeObserved h changed)
    (passed_self h)

end Routing

/-! ## Sections -/

theorem waits_popAccept (bidi : Bool) (c : Core (Metered κ)) {stream : StreamId} (h : Waits c stream) :
    (popAccept bidi c).1 = some stream ∨ Waits (popAccept bidi c).2 stream := by
  cases bidi with
  | true =>
    rcases h with hbidi | huni
    · cases hqueue : c.acceptBidi with
      | nil => simp [hqueue] at hbidi
      | cons first rest =>
        rw [hqueue] at hbidi
        rcases List.mem_cons.mp hbidi with rfl | hrest
        · exact .inl (by simp [popAccept, hqueue])
        · exact .inr (.inl (by simpa [popAccept, hqueue] using hrest))
    · exact .inr (.inr huni)
  | false =>
    rcases h with hbidi | huni
    · exact .inr (.inl hbidi)
    · cases hqueue : c.acceptUni with
      | nil => simp [hqueue] at huni
      | cons first rest =>
        rw [hqueue] at huni
        rcases List.mem_cons.mp huni with rfl | hrest
        · exact .inl (by simp [popAccept, hqueue])
        · exact .inr (.inr (by simpa [popAccept, hqueue] using hrest))

section Sections
variable [Driven κ] {reader : StreamId → Prop} {handles : StreamId → ℕ} {s : Shared (Metered κ)}

theorem books_dataTurn (h : Books reader handles s.core) (stream : StreamId) (waker : Waker) :
    Books reader handles (dataTurn stream waker s).2.core := by
  have htouched := h.works (works_touched s.core stream)
  simp only [dataTurn]
  split
  · rename_i chunk rest hincoming
    exact h.take hincoming (works_extendCredit _ stream chunk.length)
  · split
    · exact htouched
    · split
      · exact htouched
      · split <;> exact htouched

theorem books_acceptTurn (h : Books reader handles s.core) (bidi : Bool) (waker : Waker) :
    Books (fun stream => reader stream ∨ (acceptTurn bidi waker s).1 = .ready (.ok stream)) handles
      (acceptTurn bidi waker s).2.core := by
  have hwaits : ∀ stream, Waits s.core stream →
      (popAccept bidi s.core).1 = some stream ∨ Waits (popAccept bidi s.core).2 stream :=
    fun _ hwaits => waits_popAccept bidi s.core hwaits
  have hpopped : ∀ reader' : StreamId → Prop, (∀ stream, reader stream → reader' stream) →
      (∀ stream, (popAccept bidi s.core).1 = some stream → reader' stream) →
      Books reader' handles (extendMaxStreams bidi (popAccept bidi s.core).2) := by
    intro reader' hreader haccepted
    have hread : ∀ stream, held s.core stream ≠ 0 → reader' stream ∨ Waits (popAccept bidi s.core).2 stream := by
      intro stream hne
      rcases h.read stream hne with hreads | hqueued
      · exact .inl (hreader stream hreads)
      · exact (hwaits stream hqueued).imp_left (haccepted stream)
    cases bidi <;> exact ⟨h.balance, h.fed, h.counted, hread⟩
  simp only [acceptTurn]
  split
  · rename_i stream c heq
    rw [heq] at hpopped
    refine (hpopped _ (fun _ hreads => .inl hreads) fun other hother => .inr ?_).works (works_produce _)
    rw [Option.some.inj hother]
  · have hsame : ∀ more : StreamId → Prop, Books (fun stream => reader stream ∨ more stream) handles s.core :=
      fun more => h.told (fun _ _ hreads => .inl (.inl hreads)) fun _ => rfl
    split <;> exact hsame _

end Sections

/-! ## Everything together -/

/-- The books of the core are in order for the handles that there are. -/
def Kept (w : World (Metered κ)) : Prop := Books (HasReader w) (handlesOf w) w.core

section Worlds
variable {w w' : World (Metered κ)}

theorem kept_of_books (h : Books (HasReader w) (handlesOf w) w'.core) (hopening : w'.opening = w.opening)
    (hsends : w'.sends = w.sends) (hrecvs : w'.recvs = w.recvs) : Kept w' := by
  refine h.told (fun stream _ hreads => .inl ?_) fun stream => ?_
  · rw [HasReader, hopening, hrecvs]
    exact hreads
  · rw [handlesOf, handlesOf, hopening, hsends, hrecvs]

theorem Kept.works (h : Kept w) (hworks : Works 0 w.core w'.core) (hopening : w'.opening = w.opening)
    (hsends : w'.sends = w.sends) (hrecvs : w'.recvs = w.recvs) : Kept w' :=
  kept_of_books (Books.works h hworks) hopening hsends hrecvs

theorem kept_construct {ε : Type} {reads : StreamId → Prop} {answer : Poll (Except ε StreamId)} {left : List Half}
    (h : Books (fun stream => HasReader w stream ∨ reads stream) (handlesOf w) w.core)
    (hreads : ∀ stream, reads stream → answer = .ready (.ok stream) ∧ Half.recv ∈ left) :
    Kept (w.construct answer left) := by
  simp only [World.construct]
  split
  · rename_i stream
    refine h.told (fun other _ hreader => .inl ?_) fun other => ?_
    · rcases hreader with (⟨opening, hmem, hopening⟩ | hrecvs) | hanswered
      · exact .inl ⟨opening, List.mem_append_left _ hmem, hopening⟩
      · exact .inr hrecvs
      · obtain ⟨⟨⟩, hrecv⟩ := hreads other hanswered
        exact .inl ⟨_, List.mem_append_right _ (List.mem_singleton_self _), rfl, hrecv⟩
    · simp [handlesOf]
  · rename_i hnone
    refine h.told (fun other _ hreader => .inl ?_) fun other => rfl
    rcases hreader with hreader | hanswered
    · exact hreader
    · exact absurd (hreads other hanswered).1 (hnone other)

theorem hand_counts (w : World κ) (stream : StreamId) (half : Half) (other : StreamId) :
    (w.hand stream half).sends other + (w.hand stream half).recvs other =
        w.sends other + w.recvs other + (if stream = other then 1 else 0) ∧
      w.recvs other ≤ (w.hand stream half).recvs other := by
  by_cases heq : stream = other
  · subst heq
    cases half <;> simp only [World.hand, Function.update_self, if_true] <;> omega
  · cases half <;> simp [World.hand, heq, Ne.symm heq]

theorem hands (made : List Half) (stream : StreamId) (w : World (Metered κ)) :
    let w' := made.foldl (fun w half => w.hand stream half) w
    w'.core = w.core ∧ w'.opening = w.opening ∧
      (∀ other, w'.sends other + w'.recvs other =
        w.sends other + w.recvs other + if stream = other then made.length else 0) ∧
      (∀ other, 0 < w.recvs other → 0 < w'.recvs other) ∧ (Half.recv ∈ made → 0 < w'.recvs stream) := by
  induction made generalizing w with
  | nil => simp
  | cons half made ih =>
    obtain ⟨hcore, hopening, hcount, hrecvs, hrecv⟩ := ih (w.hand stream half)
    have hhand := hand_counts w stream half
    refine ⟨hcore.trans ?_, hopening.trans ?_, fun other => ?_, fun other hpos => ?_, fun hmem => ?_⟩
    · cases half <;> rfl
    · cases half <;> rfl
    · rw [List.foldl_cons, hcount, (hhand other).1, List.length_cons]
      split <;> omega
    · exact hrecvs other (Nat.lt_of_lt_of_le hpos (hhand other).2)
    · rcases List.mem_cons.mp hmem with rfl | hmem
      · exact hrecvs stream (by simp [World.hand])
      · exact hrecv hmem

theorem kept_constructNext (h : Kept w) (index : ℕ) : Kept (w.constructNext index) := by
  simp only [World.constructNext]
  split
  · exact h
  · -- Both halves are made: they are handles from here on.
    rename_i stream made hnext
    obtain ⟨hindex, hat⟩ := List.getElem?_eq_some_iff.mp hnext
    have hperm := List.getElem_cons_eraseIdx_perm hindex
    rw [hat] at hperm
    obtain ⟨hcore, hopening, hcounts, hrecvs, hrecv⟩ :=
      hands made stream { w with opening := w.opening.eraseIdx index }
    rw [Kept, hcore]
    refine h.told (fun other _ hreader => .inl ?_) fun other => ?_
    · rcases hreader with ⟨opening, hmem, hstream, hhalf⟩ | hpos
      · rcases List.mem_cons.mp (hperm.mem_iff.mpr hmem) with rfl | hmem
        · exact .inr (hstream ▸ hrecv (by simpa using hhalf))
        · exact .inl ⟨opening, by rw [hopening]; exact hmem, hstream, hhalf⟩
      · exact .inr (hrecvs other hpos)
    · have hsum := (hperm.map fun opening : Opening => if opening.stream = other then opening.made.length else 0).sum_eq
      have hcount := hcounts other
      rw [List.map_cons, List.sum_cons] at hsum
      rw [handlesOf, handlesOf, hopening, hcount]
      dsimp only at hsum hcount ⊢
      omega
  · -- One more half retains the stream.
    rename_i stream made half left hnext
    obtain ⟨hindex, hat⟩ := List.getElem?_eq_some_iff.mp hnext
    have hperm := List.getElem_cons_eraseIdx_perm hindex
    have hset := List.set_perm_cons_eraseIdx hindex { stream, made := made ++ [half], left }
    rw [hat] at hperm
    have hreaders : ∀ other, HasReader w other → HasReader { w.withCore (w.core.retainHandle stream) with
        opening := w.opening.set index { stream, made := made ++ [half], left } } other := by
      rintro other (⟨opening, hmem, hstream, hhalf⟩ | hpos)
      · rcases List.mem_cons.mp (hperm.mem_iff.mpr hmem) with rfl | hmem
        · refine .inl ⟨_, hset.mem_iff.mpr (List.mem_cons_self ..), hstream, ?_⟩
          simpa using hhalf
        · exact .inl ⟨opening, hset.mem_iff.mpr (List.mem_cons_of_mem _ hmem), hstream, hhalf⟩
      · exact .inr hpos
    have hretained : Books (HasReader w) (handlesOf { w.withCore (w.core.retainHandle stream) with
        opening := w.opening.set index { stream, made := made ++ [half], left } }) (w.core.retainHandle stream) := by
      refine Books.retain h stream fun other => ?_
      have hsum := (hperm.map fun opening : Opening => if opening.stream = other then opening.made.length else 0).sum_eq
      have hsum' := (hset.map fun opening : Opening => if opening.stream = other then opening.made.length else 0).sum_eq
      rw [List.map_cons, List.sum_cons] at hsum hsum'
      simp only [handlesOf, World.withCore, List.length_append, List.length_singleton] at hsum hsum' ⊢
      by_cases heq : stream = other
      · subst heq
        simp only [if_true] at hsum hsum' ⊢
        omega
      · simp only [heq, Ne.symm heq, if_false] at hsum hsum' ⊢
        omega
    exact hretained.told (fun other _ hreader => .inl (hreaders other hreader)) fun _ => rfl

end Worlds

theorem ended_routeEach (observed : List Observed) (c : Core (Metered κ)) (changed : Changed)
    (h : c.terminal.isSome = true) : (c.routeEach changed observed).2.terminal.isSome = true := by
  induction observed generalizing c changed with
  | nil => exact h
  | cons first observed ih =>
    refine ih _ _ ?_
    cases first with
    | opened stream => exact (grows_recordOpened { c with routed := c.routed ++ [.opened stream] } stream).terminal h
    | closed stream receiving sending =>
      dsimp only [Core.routeOne]
      split <;> exact h
    | _ => exact h

section Steps
variable [Driven κ] {w : World (Metered κ)}

/-- A step loses no bytes: no observation does harm, and whoever drops a handle leaves nothing that nobody will read. -/
def Drained (w : World (Metered κ)) : Action → Prop
  | .dropSend stream => 0 < w.sends stream → (w.core.state stream).handles = 1 → held w.core stream = 0
  | .dropRecv stream => 0 < w.recvs stream →
    (w.core.state stream).handles = 1 ∨ ¬ (HasReader (w.step (.dropRecv stream)) stream ∨ Waits w.core stream) →
      held w.core stream = 0
  | action => AtEach (Heeds w) ((w.step action).core.routed.drop w.core.routed.length)

/-- No step of a run loses bytes while the connection lives. -/
def DrainedRun : World (Metered κ) → List Action → Prop
  | _, [] => True
  | w, action :: actions => (w.core.terminal = none → Drained w action) ∧ DrainedRun (w.step action) actions

theorem books_pump {α : Type} {reader : StreamId → Prop} (h : Kept w) (act : Shared (Metered κ) → α × Shared (Metered κ))
    (hrouted : ∀ s, (act s).2.core.routed = s.core.routed)
    (hact : Books (HasReader w) (handlesOf w) w.core.pump.2 →
      Books reader (handlesOf w) (act (w.shared.withCore w.core.pump.2)).2.core)
    (hheeds : AtEach (Heeds w) ((w.pump act).2.core.routed.drop w.core.routed.length)) :
    Books reader (handlesOf w) (w.pump act).2.core := by
  obtain ⟨before, hbefore, -, hpassing⟩ := passed_pump h
  have hrearm := works_rearm (act (w.shared.withCore w.core.pump.2)).2.core
  have hall : (w.pump act).2.core.routed = w.core.routed ++ before :=
    (hrearm.routed.trans (hrouted _)).trans hbefore
  rw [hall, List.drop_left] at hheeds
  exact (hact (hpassing hheeds).books).works hrearm

theorem kept_pump {α : Type} (h : Kept w) (act : Shared (Metered κ) → α × Shared (Metered κ))
    (hworks : ∀ s, Works 0 s.core (act s).2.core)
    (hheeds : AtEach (Heeds w) ((w.pump act).2.core.routed.drop w.core.routed.length)) : Kept (w.pump act).2 :=
  kept_of_books (books_pump h act (fun s => (hworks s).routed) (fun hbooks => hbooks.works (hworks (w.shared.withCore w.core.pump.2)))
    hheeds)
    rfl rfl rfl

theorem routed_dataTurn (stream : StreamId) (waker : Waker) (s : Shared (Metered κ)) :
    (dataTurn stream waker s).2.core.routed = s.core.routed := by
  simp only [dataTurn]
  split
  · exact (works_extendCredit _ stream _).routed
  · repeat' split
    all_goals rfl

theorem routed_acceptTurn (bidi : Bool) (waker : Waker) (s : Shared (Metered κ)) :
    (acceptTurn bidi waker s).2.core.routed = s.core.routed := by
  have hpopped : (popAccept bidi s.core).2.routed = s.core.routed := by cases bidi <;> rfl
  simp only [acceptTurn]
  split
  · rename_i stream c heq
    rw [heq] at hpopped
    exact (works_produce _).routed.trans hpopped
  · split <;> rfl

theorem kept_accept (h : Kept w) (bidi : Bool) (waker : Waker)
    (hheeds : AtEach (Heeds w) ((w.step (.accept bidi waker)).core.routed.drop w.core.routed.length)) :
    Kept (w.step (.accept bidi waker)) := by
  have hroutes : (w.step (.accept bidi waker)).core.routed = (w.pump (acceptTurn bidi waker)).2.core.routed := by
    simp only [World.step, World.tell, World.construct]
    split <;> rfl
  rw [hroutes] at hheeds
  have hbooks := books_pump h (acceptTurn bidi waker) (routed_acceptTurn bidi waker)
    (fun hbooks => books_acceptTurn (s := w.shared.withCore w.core.pump.2) hbooks bidi waker) hheeds
  have hconstructed : Kept ((w.pump (acceptTurn bidi waker)).2.construct (w.pump (acceptTurn bidi waker)).1
      (if bidi then [.send, .recv] else [.recv])) :=
    kept_construct hbooks fun stream hanswer => ⟨hanswer, by cases bidi <;> simp⟩
  exact hconstructed

theorem kept_dropSend (h : Kept w) (stream : StreamId) (hdrained : Drained w (.dropSend stream)) :
    Kept (w.step (.dropSend stream)) := by
  simp only [World.step]
  split
  · rename_i hhandle
    obtain ⟨c, hworks, hdropped⟩ : ∃ c, Works 0 w.core c ∧ (dropSend stream w.core).2 = (c.releaseHandle stream).2 := by
      simp only [dropSend]
      split
      · exact ⟨_, .refl _, rfl⟩
      · split
        · exact ⟨_, works_touched _ stream, rfl⟩
        · exact ⟨_, (works_abandon stream abandoned w.core).trans (works_rearm _), rfl⟩
    have hpos : 0 < handlesOf w stream := by
      simp only [handlesOf]
      omega
    have hlast : handlesOf w stream = 1 → held c stream = 0 := by
      intro hone
      rw [held_works hworks]
      exact hdrained hhandle ((h.counted stream).trans hone)
    have hreleased : Books (HasReader w) (handlesOf (w.step (.dropSend stream))) (c.releaseHandle stream).2 := by
      refine (Books.works h hworks).release hpos hlast fun other => ?_
      simp only [World.step, if_pos hhandle, handlesOf, World.lock, World.withCore, Function.update_apply]
      split
      · rename_i heq
        subst heq
        omega
      · rfl
    rw [← hdropped] at hreleased
    simp only [World.step, if_pos hhandle] at hreleased
    exact hreleased
  · exact h

theorem kept_dropRecv (h : Kept w) (stream : StreamId) (hdrained : Drained w (.dropRecv stream)) :
    Kept (w.step (.dropRecv stream)) := by
  by_cases hhandle : 0 < w.recvs stream
  · have hdrained := hdrained hhandle
    obtain ⟨w', hw'⟩ : ∃ w', w' = w.step (.dropRecv stream) := ⟨_, rfl⟩
    rw [← hw'] at hdrained ⊢
    simp only [World.step, if_pos hhandle] at hw'
    have hopening : w'.opening = w.opening := by rw [hw']; rfl
    have hrecvs : w'.recvs = Function.update w.recvs stream (w.recvs stream - 1) := by rw [hw']
    have hsends : w'.sends = w.sends := by rw [hw']; rfl
    have hcore : w'.core = (w.core.releaseHandle stream).2 := by rw [hw']; rfl
    have hpos : 0 < handlesOf w stream := by
      simp only [handlesOf]
      omega
    have htold : Books (HasReader w') (handlesOf w) w.core := by
      refine h.told (fun other hne hreader => ?_) fun _ => rfl
      by_cases heq : other = stream
      · subst heq
        by_contra hnobody
        exact hne (hdrained (.inr hnobody))
      · rw [HasReader, hopening, hrecvs, Function.update_of_ne heq]
        exact .inl hreader
    rw [Kept, hcore]
    refine htold.release hpos (fun hone => hdrained (.inl ((h.counted stream).trans hone))) fun other => ?_
    rw [handlesOf, handlesOf, hopening, hrecvs, hsends, Function.update_apply]
    split
    · rename_i heq
      subst heq
      omega
    · rfl
  · simp only [World.step, if_neg hhandle]
    exact h

theorem kept_step (h : Kept w) (action : Action) (hdrained : Drained w action) : Kept (w.step action) := by
  cases action with
  | accept bidi waker => exact kept_accept h bidi waker hdrained
  | openStream bidi waker =>
    have hroutes : (w.step (.openStream bidi waker)).core.routed = (w.pump (openTurn bidi waker)).2.core.routed := by
      simp only [World.step, World.construct]
      split <;> rfl
    have hheeds : AtEach (Heeds w) ((w.step (.openStream bidi waker)).core.routed.drop w.core.routed.length) := hdrained
    rw [hroutes] at hheeds
    have hpump := kept_pump h (openTurn bidi waker) (works_openTurn bidi waker) hheeds
    have hbooks : Books (fun stream => HasReader (w.pump (openTurn bidi waker)).2 stream ∨ False)
        (handlesOf (w.pump (openTurn bidi waker)).2) (w.pump (openTurn bidi waker)).2.core :=
      hpump.told (fun _ _ hreader => .inl (.inl hreader)) fun _ => rfl
    exact kept_construct hbooks fun _ hnever => hnever.elim
  | construct index => exact kept_constructNext h index
  | close code reason => exact h.works (works_closeConnection code reason w.core) rfl rfl rfl
  | dropConnection => exact h.works (works_release w.core) rfl rfl rfl
  | retained stream waker =>
    simp only [Drained, World.step] at hdrained ⊢
    split
    · rename_i hhandle
      rw [if_pos hhandle] at hdrained
      exact kept_pump h (retainedTurn stream waker) (works_retainedTurn stream waker) hdrained
    · exact h
  | finish stream waker =>
    simp only [Drained, World.step] at hdrained ⊢
    split
    · rename_i hhandle
      rw [if_pos hhandle] at hdrained
      exact kept_pump h (finishTurn stream waker) (works_finishTurn stream waker) hdrained
    · exact h
  | send stream chunk waker =>
    simp only [Drained, World.step] at hdrained ⊢
    split
    · rename_i hhandle
      rw [if_pos hhandle] at hdrained
      exact kept_pump h (sendTurn stream chunk waker) (works_sendTurn stream chunk waker) hdrained
    · exact h
  | sendData stream data =>
    simp only [World.step]
    split
    · exact h.works (works_sendData stream data w.core) rfl rfl rfl
    · exact h
  | reset stream code =>
    simp only [World.step]
    split
    · exact h.works (works_resetStream stream code w.core) rfl rfl rfl
    · exact h
  | dropSend stream => exact kept_dropSend h stream hdrained
  | data stream waker =>
    simp only [Drained, World.step] at hdrained ⊢
    split
    · rename_i hhandle
      rw [if_pos hhandle] at hdrained
      have hbooks := books_pump h (dataTurn stream waker) (routed_dataTurn stream waker)
        (fun hbooks => books_dataTurn (s := w.shared.withCore w.core.pump.2) hbooks stream waker) hdrained
      exact kept_of_books (w := w) hbooks rfl rfl rfl
    · exact h
  | stopSending stream code =>
    simp only [World.step]
    split
    · exact h.works (works_stopSending stream code w.core) rfl rfl rfl
    · exact h
  | dropRecv stream => exact kept_dropRecv h stream hdrained
  | deliver index =>
    simp only [World.step]
    split
    · exact h.works (.refl _) rfl rfl rfl
    · exact h
  | timer =>
    simp only [World.step]
    split
    · split
      · exact h.works (.refl _) rfl rfl rfl
      · exact h
    · exact h
  | arrive datagram =>
    refine h.works (.of_goes (.of_observed ?_)) rfl rfl rfl
    rw [ConnectionShared.deliverInbound]
    split <;> rfl
  | takeOutbound =>
    refine h.works (.of_goes (.of_observed ?_)) rfl rfl rfl
    rw [ConnectionShared.takeOutbound]
    split <;> rfl
  | advance nanos =>
    exact h.works ⟨.refl _ _, rfl, rfl, rfl, rfl, fun _ => rfl, fun _ => rfl, fun hended => hended⟩ rfl rfl rfl

/-! ## Runs -/

theorem ended_pump {α : Type} (act : Shared (Metered κ) → α × Shared (Metered κ)) (hacts : ∀ s, Acts s (act s).2)
    (h : w.core.terminal.isSome = true) : (w.pump act).2.core.terminal.isSome = true := by
  have hpump : w.core.pump.2.terminal.isSome = true :=
    keeps_pump (P := fun c => c.terminal.isSome = true) (fun _ _ hworks hended => hworks.ended hended)
      (fun c changed hended => ended_routeEach _ _ changed hended) h
  exact (works_rearm _).ended ((hacts (w.shared.withCore w.core.pump.2)).grows.terminal hpump)

theorem ended_dropSend (c : Core (Metered κ)) (stream : StreamId) (h : c.terminal.isSome = true) :
    (dropSend stream c).2.terminal.isSome = true := by
  simp only [dropSend, h, if_true, terminal_releaseHandle]

theorem ended_step (action : Action) (h : w.core.terminal.isSome = true) :
    (w.step action).core.terminal.isSome = true := by
  cases action with
  | accept bidi waker =>
    have hpump := ended_pump (acceptTurn bidi waker) (acts_acceptTurn bidi waker) h
    simp only [World.step, World.tell, World.construct]
    split <;> exact hpump
  | openStream bidi waker =>
    have hpump := ended_pump (openTurn bidi waker) (acts_openTurn bidi waker) h
    simp only [World.step, World.construct]
    split <;> exact hpump
  | construct index =>
    simp only [World.step, World.constructNext]
    split
    · exact h
    · rw [(hands _ _ _).1]
      exact h
    · exact h
  | close code reason => exact (works_closeConnection code reason w.core).ended h
  | dropConnection => exact (works_release w.core).ended h
  | retained stream waker =>
    simp only [World.step]
    split
    · exact ended_pump (retainedTurn stream waker) (acts_retainedTurn stream waker) h
    · exact h
  | finish stream waker =>
    simp only [World.step]
    split
    · exact ended_pump (finishTurn stream waker) (acts_finishTurn stream waker) h
    · exact h
  | send stream chunk waker =>
    simp only [World.step]
    split
    · exact ended_pump (sendTurn stream chunk waker) (acts_sendTurn stream chunk waker) h
    · exact h
  | sendData stream data =>
    simp only [World.step]
    split
    · exact (works_sendData stream data w.core).ended h
    · exact h
  | reset stream code =>
    simp only [World.step]
    split
    · exact (works_resetStream stream code w.core).ended h
    · exact h
  | dropSend stream =>
    simp only [World.step]
    split
    · exact ended_dropSend w.core stream h
    · exact h
  | data stream waker =>
    simp only [World.step]
    split
    · exact ended_pump (dataTurn stream waker) (acts_dataTurn stream waker) h
    · exact h
  | stopSending stream code =>
    simp only [World.step]
    split
    · exact (works_stopSending stream code w.core).ended h
    · exact h
  | dropRecv stream =>
    simp only [World.step]
    split
    · exact (congrArg Option.isSome (terminal_releaseHandle w.core stream)).trans h
    · exact h
  | deliver index =>
    simp only [World.step]
    split <;> exact h
  | timer =>
    simp only [World.step]
    split
    · split <;> exact h
    · exact h
  | arrive datagram => exact h
  | takeOutbound => exact h
  | advance nanos => exact h

theorem kept_reached (h : w.core.terminal = none → Kept w) {actions : List Action} (hrun : DrainedRun w actions)
    (hlive : (w.reached actions).core.terminal = none) : Kept (w.reached actions) := by
  induction actions generalizing w with
  | nil => exact h hlive
  | cons action actions ih =>
    refine ih (fun hstep => ?_) hrun.2 hlive
    have hbefore : w.core.terminal = none := by
      by_contra hended
      have hstill := ended_step action (Option.isSome_iff_ne_none.mpr hended)
      rw [hstep] at hstill
      cases hstill
    exact kept_step (h hbefore) action (hrun.1 hbefore)

end Steps

/-- While the connection lives, the bytes routed are those granted and those that wait for a reader. -/
theorem window_conserved [Driven κ] (conn : κ) (initiator : Initiator) (shared : ConnectionShared) (now : ℕ)
    (actions : List Action) (hrun : DrainedRun (fromDetached ({ conn } : Metered κ) initiator shared now) actions) :
    let w := (fromDetached ({ conn } : Metered κ) initiator shared now).reached actions
    w.core.terminal = none → routedBytes w.core.routed = w.core.conn.offset + queued w := by
  intro w hlive
  have hnew : Kept (fromDetached ({ conn } : Metered κ) initiator shared now) :=
    ⟨rfl, fun _ hne => absurd rfl hne, fun _ => rfl, fun _ hne => absurd rfl hne⟩
  exact Books.queued_eq (kept_reached (fun _ => hnew) hrun hlive)

/-! ## A reader that goes -/

/-- The peer opens a stream and sends three bytes on it. -/
def feeding : Metered PlannedConnection where
  conn := { script := { reads := [(.ok .processed, [.observe (.opened ⟨0, zero_le_maxVarint⟩),
    .observe (.data ⟨0, zero_le_maxVarint⟩ [1, 2, 3] false)])] } }

/-- A stream is accepted, and both its halves are handed over. -/
def accepted : List Action := [.arrive [0], .accept true 0, .construct 0, .construct 0, .construct 0]

/-- The reader takes what there is before it goes. -/
theorem window_conserved_accepted :
    let w := (fromDetached feeding .server {} 0).reached (accepted ++ [.data ⟨0, by decide⟩ 0, .dropRecv ⟨0, by decide⟩])
    routedBytes w.core.routed = w.core.conn.offset + queued w := by
  refine window_conserved feeding.conn .server {} 0 _ ⟨fun _ => ?_, fun _ => ?_, fun _ => ?_, fun _ => ?_, fun _ => ?_,
    fun _ => ?_, fun _ => ?_, trivial⟩ rfl
  · exact atEach_nil
  · show AtEach _ ([] ++ [Observed.opened ⟨0, by decide⟩] ++ [Observed.data ⟨0, by decide⟩ [1, 2, 3] false])
    rw [atEach_concat, atEach_concat]
    exact ⟨⟨atEach_nil, trivial⟩, .inr (.inr (.inr ⟨by decide, by simp⟩))⟩
  · exact atEach_nil
  · exact atEach_nil
  · exact atEach_nil
  · exact atEach_nil
  · exact fun _ _ => rfl

/-- The window loses three bytes where the reader goes before it has read them. -/
theorem window_shrinks :
    let w := (fromDetached feeding .server {} 0).reached (accepted ++ [.dropRecv ⟨0, by decide⟩])
    w.core.terminal = none ∧ routedBytes w.core.routed = 3 ∧ w.core.conn.offset + queued w = 0 := by
  decide

end Ngnet.QuicHyperiumWindow
