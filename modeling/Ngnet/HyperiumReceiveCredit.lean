import Ngnet.HyperiumSteps
import Ngnet.TreeMapTotals

/-!
# Connection credit for received bytes

While the core has no terminal, the bytes routed to it are the bytes it gave connection credit for
and the bytes its streams still hold; and a stream whose receive handle is gone holds none. An
extension that the layer below refuses ends the core, so as long as there is no terminal the
connection credit passed down is the connection credit dwnx was given.
-/

namespace Ngnet.HyperiumReceiveCredit
open QmuxVarints QmuxErrors QmuxStreams StatefulPrograms QmuxRecordWriter QmuxConnection
open HyperiumCore Core HyperiumHandles HyperiumSteps TreeMapTotals Relation

variable {β ν : Type}

/-! ## Books -/

/-- The bytes a stream has received and not read. -/
def heldBytes (s : StreamState) : ℕ := (s.recv.map (·.data.length)).sum

def held (c : Core β ν) : ℕ := total heldBytes c.streams

def routedBytes (routed : List Event) : ℕ := (routed.map Event.dataLen).sum

theorem routedBytes_append (routed : List Event) (event : Event) :
    routedBytes (routed ++ [event]) = routedBytes routed + event.dataLen := by
  rw [routedBytes, List.map_append, List.sum_append]
  rfl

/-- The layer below delivers no bytes of a stream after the end of what it receives. -/
def NoDataAfterEnd (routed : List Event) : Prop :=
  ∀ before event after id, routed = before ++ event :: after → named event = some id →
    0 < event.dataLen → ¬ ReceiveEnded before id

variable {routed routed' : List Event}

theorem NoDataAfterEnd.past (h : routed <+: routed')
    (h' : NoDataAfterEnd routed') : NoDataAfterEnd routed := by
  obtain ⟨more, rfl⟩ := h
  rintro before event after id rfl
  exact h' before event (after ++ more) id (by simp)

/-- The native library opens each stream once, on its own side and of the kind it was asked for. -/
structure OpensNew (c : Core β ν) : Prop where
  once : (openedIds c.lower.conn.calls).Nodup
  own : ∀ kind id, .openStream kind (.ok (.opened id)) ∈ c.lower.conn.calls →
    id.initiator = c.localInitiator ∧ id.directionality = kind

variable {c d : Core β ν}

theorem localInitiator_past (h : Grows c d) : c.localInitiator = d.localInitiator := by
  rw [localInitiator, localInitiator, h.role]

theorem openedIds_past {calls calls' : List NativeCall} (h : calls <+: calls') :
    openedIds calls <+: openedIds calls' := by
  obtain ⟨more, rfl⟩ := h
  rw [openedIds, openedIds, List.filterMap_append]
  exact List.prefix_append _ _

theorem OpensNew.past (h : Grows c d) (hd : OpensNew d) : OpensNew c := by
  constructor
  · exact hd.once.sublist (openedIds_past h.calls).sublist
  · intro kind id hcall
    rw [localInitiator_past h]
    exact hd.own kind id (h.calls.subset hcall)

variable {id : StreamId}

theorem receiveEnded_mono (h : routed <+: routed')
    (hended : ReceiveEnded routed id) : ReceiveEnded routed' id := by
  obtain ⟨event, hevent, hends⟩ := hended
  exact ⟨event, h.subset hevent, hends⟩

/-! ## The invariant -/

/-- What holds of a stream: without a handle it is drained and stays so. -/
structure Kept (routed : List Event) (valid : Bool) (id : StreamId) (s : StreamState) : Prop where
  drained : s.pendingAccept = false → s.recvHandle = false → s.recv = [] ∧
    (s.recvShutdownSent = true ∨ ReceiveEnded routed id ∨ valid = false)
  ended : s.recvTerminal.isSome = true → s.recvShutdownSent = true ∨ ReceiveEnded routed id
  fins : ∀ item ∈ s.recv, item.fin = true → ReceiveEnded routed id

theorem Kept.mono {valid : Bool} {s : StreamState}
    (h : routed <+: routed') (hs : Kept routed valid id s) : Kept routed' valid id s := by
  refine ⟨fun hpending hhandle => ?_, fun hterminal => ?_, fun item hitem hfin => ?_⟩
  · obtain ⟨hrecv, hwhy⟩ := hs.drained hpending hhandle
    refine ⟨hrecv, ?_⟩
    rcases hwhy with hsent | hended | hvalid
    · exact .inl hsent
    · exact .inr (.inl (receiveEnded_mono h hended))
    · exact .inr (.inr hvalid)
  · exact (hs.ended hterminal).imp_right (receiveEnded_mono h)
  · exact receiveEnded_mono h (hs.fins item hitem hfin)

/-- The books of a core: `base` is the credit given before it was made. -/
structure Balanced (base : ℕ) (c : Core β ν) : Prop where
  books : routedBytes c.routed + base = credited c.lower.conn.calls + held c
  kept : ∀ id s, c.streams[id]? = some s → Kept c.routed (c.receiveDirectionValid id) id s
  own : ∀ id s, c.streams[id]? = some s → id.initiator = c.localInitiator →
    id ∈ openedIds c.lower.conn.calls

theorem balanced_new (lower : Connection β ν) (limit : ℕ) :
    Balanced (credited lower.conn.calls) (Core.new lower limit) := by
  constructor
  · show 0 + credited lower.conn.calls = credited lower.conn.calls + 0
    rw [Nat.zero_add, Nat.add_zero]
  · intro id s here
    cases (Std.TreeMap.getElem?_emptyc).symm.trans here
  · intro id s here
    cases (Std.TreeMap.getElem?_emptyc).symm.trans here

section Steps
variable {base : ℕ} {c : Core β ν} {id : StreamId} {s t : StreamState}

theorem lookup_insert {m : StreamMap} {id' : StreamId} {s' : StreamState}
    (h : (m.insert id t)[id']? = some s') : id = id' ∧ s' = t ∨ m[id']? = some s' := by
  rw [Std.TreeMap.getElem?_insert] at h
  split at h
  · rename_i heq
    exact .inl ⟨compare_eq_iff.mp heq, (Option.some.inj h).symm⟩
  · exact .inr h

variable {l : Connection β ν}

theorem Balanced.replace {bytes : ℕ} {routed : List Event} (h : Balanced base c)
    (here : c.streams[id]? = some s) (below : Below bytes c.lower l) (hrouted : c.routed <+: routed)
    (hbooks : routedBytes routed + heldBytes s = routedBytes c.routed + bytes + heldBytes t)
    (hkept : Kept routed (c.receiveDirectionValid id) id t) :
    Balanced base { c with lower := l, routed, streams := c.streams.insert id t } := by
  have htotal := total_insert (v := t) heldBytes here
  constructor
  · have hold := h.books
    have hcredit := below.credited
    simp only [held] at hold ⊢
    omega
  · intro id' s' h'
    rcases lookup_insert h' with ⟨rfl, rfl⟩ | h'
    · exact hkept
    · exact (h.kept id' s' h').mono hrouted
  · intro id' s' h' hlocal
    apply (openedIds_past below.calls).subset
    rcases lookup_insert h' with ⟨rfl, rfl⟩ | h'
    · exact h.own id s here hlocal
    · exact h.own id' s' h' hlocal

theorem Balanced.setStream (h : Balanced base c) (here : c.streams[id]? = some s)
    (hrecv : t.recv = s.recv) (hkept : Kept c.routed (c.receiveDirectionValid id) id t) :
    Balanced base (c.setStream id t) :=
  h.replace here (.refl c.lower) List.prefix_rfl (by rw [heldBytes, heldBytes, hrecv]; omega) hkept

theorem Balanced.observe {event : Event} (h : Balanced base c) (empty : event.dataLen = 0) :
    Balanced base (observe c event) := by
  have hrouted : c.routed <+: c.routed ++ [event] := List.prefix_append _ _
  constructor
  · show routedBytes (c.routed ++ [event]) + base = _
    rw [routedBytes_append, empty]
    exact h.books
  · intro id' s' h'
    exact (h.kept id' s' h').mono hrouted
  · exact h.own

theorem Balanced.insert (h : Balanced base c) (unknown : c.streams[id]? = none)
    (below : Below 0 c.lower l) (hrecv : t.recv = []) (hkept : Kept c.routed (c.receiveDirectionValid id) id t)
    (hown : id.initiator = c.localInitiator → id ∈ openedIds l.conn.calls) :
    Balanced base { c with lower := l, streams := c.streams.insert id t } := by
  constructor
  · have htotal := total_insert_new (v := t) heldBytes unknown
    have hold := h.books
    have hcredit := below.credited
    have hnone : heldBytes t = 0 := by rw [heldBytes, hrecv]; rfl
    simp only [held] at hold ⊢
    omega
  · intro id' s' h'
    rcases lookup_insert h' with ⟨rfl, rfl⟩ | h'
    · exact hkept
    · exact h.kept id' s' h'
  · intro id' s' h' hlocal
    rcases lookup_insert h' with ⟨rfl, rfl⟩ | h'
    · exact hown hlocal
    · exact (openedIds_past below.calls).subset (h.own id' s' h' hlocal)

theorem Balanced.enqueue (h : Balanced base c) (fresh : Fresh c id) : Balanced base (c.enqueue id) := by
  have hnew : Balanced base { c with streams := c.streams.insert id { pendingAccept := true } } :=
    h.insert fresh.unknown (.refl c.lower) rfl ⟨nofun, nofun, nofun⟩ fun hlocal => absurd hlocal fresh.peer
  have hstreams : (c.enqueue id).streams = _ := enqueue_streams
  obtain ⟨_, _, _, _, _, _, heq⟩ := enqueue_same c id
  rw [heq] at hstreams ⊢
  rw [← hstreams] at hnew
  exact ⟨hnew.books, hnew.kept, hnew.own⟩

theorem Balanced.met {d : Core β ν} (h : Balanced base c) (met : Met c id d) : Balanced base d := by
  rcases met with rfl | ⟨fresh, rfl⟩
  · exact h
  · exact h.enqueue fresh

theorem Balanced.below (h : Balanced base c) (below : Below 0 c.lower l) :
    Balanced base { c with lower := l } := by
  refine ⟨?_, h.kept, fun id s here hlocal => (openedIds_past below.calls).subset (h.own id s here hlocal)⟩
  have hold := h.books
  have hcredit := below.credited
  simp only [held] at hold ⊢
  omega

theorem Balanced.arrive {d : Core β ν} {offset : ℕ} {data : Bytes} {fin : Bool} (h : Balanced base d)
    (valid : d.receiveDirectionValid id = true) (here : d.streams[id]? = some s)
    (live : s.recvShutdownSent = false) (nonempty : data ≠ [])
    (quiet : NoDataAfterEnd (d.routed ++ [.streamData id offset data fin])) :
    Balanced base (HyperiumSteps.observe (d.setStream id { s with
      recv := s.recv ++ [⟨data, fin⟩], recvWaiter := none }) (.streamData id offset data fin)) := by
  have hrouted : d.routed <+: d.routed ++ [.streamData id offset data fin] := List.prefix_append _ _
  have hs := h.kept id s here
  refine h.replace here (.refl d.lower) hrouted ?_ ⟨fun hpending hhandle => ?_, fun hterminal => ?_,
    fun item hitem hfin => ?_⟩
  · show routedBytes (d.routed ++ [.streamData id offset data fin]) + _ = _
    rw [routedBytes_append, heldBytes, heldBytes, List.map_append, List.sum_append]
    simp only [Event.dataLen, List.map_cons, List.map_nil, List.sum_cons, List.sum_nil]
    omega
  · -- a stream nobody reads is shut down, has ended or cannot receive
    obtain ⟨-, hsent | hended | hinvalid⟩ := hs.drained hpending hhandle
    · rw [live] at hsent
      cases hsent
    · refine absurd hended (quiet d.routed _ [] id rfl rfl ?_)
      exact List.length_pos_iff.mpr nonempty
    · rw [valid] at hinvalid
      cases hinvalid
  · exact (hs.ended hterminal).imp_right (receiveEnded_mono hrouted)
  · rcases List.mem_append.mp hitem with hitem | hitem
    · exact receiveEnded_mono hrouted (hs.fins item hitem hfin)
    · rw [List.mem_singleton.mp hitem] at hfin
      exact ⟨_, List.mem_append_right _ (List.mem_singleton.mpr rfl), rfl, hfin⟩

theorem Balanced.read {item : Received} {rest : List Received} (h : Balanced base c)
    (here : c.streams[id]? = some s) (first : s.recv = item :: rest)
    (below : Below item.data.length c.lower l) :
    Balanced base ({ c with lower := l }.setStream id { s with recv := rest }) := by
  have hs := h.kept id s here
  refine h.replace here below List.prefix_rfl ?_ ⟨fun hpending hhandle => ?_, hs.ended,
    fun item' hitem hfin => ?_⟩
  · rw [heldBytes, heldBytes, first, List.map_cons, List.sum_cons]
    dsimp only
    omega
  · obtain ⟨hrecv, -⟩ := hs.drained hpending hhandle
    rw [first] at hrecv
    cases hrecv
  · exact hs.fins item' (by rw [first]; exact List.mem_cons_of_mem _ hitem) hfin

theorem Balanced.open {kind : OpenKind} (h : Balanced base c) (below : Below 0 c.lower l)
    (calls : c.lower.conn.calls ++ [.openStream kind.directionality (.ok (.opened id))] <+: l.conn.calls)
    (opens : OpensNew { c with lower := l }) :
    Balanced base ({ c with lower := l }.setStream id
      { sendHandle := true, recvHandle := decide (kind = OpenKind.bidi) }) := by
  obtain ⟨hlocal, hkind⟩ := opens.own kind.directionality id
    (calls.subset (List.mem_append_right _ (List.mem_singleton.mpr rfl)))
  have hopened : openedIds c.lower.conn.calls ++ [id] <+: openedIds l.conn.calls := by
    have hpast := openedIds_past calls
    rw [openedIds, openedIds, List.filterMap_append] at hpast
    exact hpast
  have hunknown : c.streams[id]? = none := by
    cases here : c.streams[id]? with
    | none => rfl
    | some s =>
      have honce : (openedIds c.lower.conn.calls ++ [id]).Nodup := opens.once.sublist hopened.sublist
      have hnot := (List.nodup_append.mp honce).2.2 id (h.own id s here hlocal) id (List.mem_singleton.mpr rfl)
      exact absurd rfl hnot
  refine h.insert hunknown below rfl ⟨fun _ hhandle => ⟨rfl, .inr (.inr ?_)⟩, nofun, nofun⟩ fun _ => ?_
  · -- without a receive handle it was opened to send only
    cases kind with
    | bidi => cases hhandle
    | uni =>
      have hlocal' : id.initiator = c.localInitiator := hlocal
      have hkind' : id.directionality = .unidirectional := hkind
      simp [receiveDirectionValid, hlocal', hkind']
  · exact hopened.subset (List.mem_append_right _ (List.mem_singleton.mpr rfl))

theorem Kept.mild {routed : List Event} {valid : Bool} {mayPark : Prop} (hs : Kept routed valid id s)
    (mild : Mild routed mayPark id s t) : Kept routed valid id t := by
  refine ⟨fun hpending hhandle => ?_, fun hterminal => ?_, fun item hitem hfin => ?_⟩
  · rw [mild.recv, mild.recvShutdownSent]
    exact hs.drained (mild.pendingAccept ▸ hpending) (mild.recvHandle ▸ hhandle)
  · rw [mild.recvShutdownSent]
    rcases mild.recvTerminal with heq | hended
    · exact hs.ended (heq ▸ hterminal)
    · exact .inr hended
  · exact hs.fins item (mild.recv ▸ hitem) hfin

end Steps

/-- What the books rely on of the layer below. -/
structure Orderly (c : Core β ν) : Prop where
  quiet : NoDataAfterEnd c.routed
  opens : OpensNew c

theorem Orderly.past (h : Grows c d) (hd : Orderly d) : Orderly c :=
  ⟨hd.quiet.past h.routed, hd.opens.past h⟩

theorem receiveDirectionValid_met (met : Met c id d)
    (valid : c.receiveDirectionValid id = true) : d.receiveDirectionValid id = true := by
  rw [receiveDirectionValid, ← localInitiator_past met.grows]
  exact valid

theorem Balanced.step {base : ℕ} {sec : Section} (h : CoreStep sec c d) (hd : Orderly d)
    (live : d.terminal = none) (hc : Balanced base c) : Balanced base d := by
  cases h with
  | effects _ => exact ⟨hc.books, hc.kept, hc.own⟩
  | slots _ => exact ⟨hc.books, hc.kept, hc.own⟩
  | resolved _ _ _ _ => exact ⟨hc.books, hc.kept, hc.own⟩
  | lower below => exact hc.below below
  | observed empty met =>
    rcases met with rfl | ⟨id, -, met⟩
    · exact hc.observe empty
    · exact (hc.met met).observe empty
  | arrived valid met here open' nonempty =>
    exact (hc.met met).arrive (receiveDirectionValid_met met valid) here open' nonempty hd.quiet
  | @refunded id offset data fin l below =>
    refine ⟨?_, fun id s here => (hc.kept id s here).mono (List.prefix_append _ _),
      fun id s here hlocal => (openedIds_past below.calls).subset (hc.own id s here hlocal)⟩
    show routedBytes (c.routed ++ [.streamData id offset data fin]) + base = _
    have hold := hc.books
    have hcredit := below.credited
    rw [routedBytes_append]
    simp only [held, Event.dataLen, HyperiumSteps.observe] at hold ⊢
    omega
  | failed _ terminal _ _ _ _ _ =>
    rw [fail_terminal] at live
    cases live
  | overloaded _ _ =>
    rw [overload, fail_terminal] at live
    cases live
  | closed _ =>
    rw [requestClose] at live ⊢
    split at live
    · rename_i hclose
      rw [if_pos hclose]
      exact hc
    · rw [fail_terminal] at live
      cases live
  | @accepted kind id rest s asked first here =>
    have hs := hc.kept id s here
    have haccepted := hc.setStream (t := s.accept kind) here rfl ⟨fun _ hhandle => (by cases hhandle), hs.ended, hs.fins⟩
    cases kind <;> exact ⟨haccepted.books, haccepted.kept, haccepted.own⟩
  | @panicked kind _ _ _ _ => cases kind <;> exact ⟨hc.books, hc.kept, hc.own⟩
  | openedStream below calls => exact hc.open below calls ⟨hd.opens.once, hd.opens.own⟩
  | updated here mild => exact hc.setStream here mild.recv ((hc.kept _ _ here).mild mild)
  | @swept f mild =>
    refine ⟨?_, fun id t ht => ?_, fun id t ht hlocal => ?_⟩
    · have hsame : total heldBytes (c.streams.map fun _ s => f s) = total heldBytes c.streams :=
        total_map f fun s => by rw [heldBytes, heldBytes, (mild ⟨0, by decide⟩ s).recv]
      show _ = _ + total heldBytes (c.streams.map fun _ s => f s)
      rw [hsame]
      exact hc.books
    · rw [getElem?_mapStreams] at ht
      obtain ⟨s, here, rfl⟩ := Option.map_eq_some_iff.mp ht
      exact (hc.kept id s here).mild (mild id s)
    · rw [getElem?_mapStreams] at ht
      obtain ⟨s, here, rfl⟩ := Option.map_eq_some_iff.mp ht
      exact hc.own id s here hlocal
  | read here first below => exact hc.read here first below
  | @readLast id s item rest l here first last below =>
    have htaken := hc.read here first below
    have hs := htaken.kept id _ setStream_lookup
    have hended := (hc.kept id s here).fins item (by rw [first]; exact List.mem_cons_self) last
    exact htaken.setStream setStream_lookup rfl ⟨hs.drained, fun _ => .inr hended, hs.fins⟩
  | @discarded id s shutdownSent terminal l here ended below =>
    have hs := hc.kept id s here
    have hwhy : shutdownSent = true ∨ ReceiveEnded c.routed id := by
      rcases ended with hsent | ⟨rfl, hterminal⟩
      · exact .inl hsent
      · exact hs.ended hterminal
    refine hc.replace here below List.prefix_rfl ?_ ⟨fun _ _ => ⟨rfl, ?_⟩, fun _ => hwhy, by simp⟩
    · rw [heldBytes, heldBytes]
      simp only [List.map_nil, List.sum_nil]
      omega
    · exact hwhy.imp_right .inl
  | @dropped id s here drained =>
    have hs := hc.kept id s here
    refine hc.setStream here rfl ⟨fun _ _ => ?_, hs.ended, hs.fins⟩
    rcases drained with hended | ⟨hrecv, hterminal⟩
    · rw [show c.terminal = none from live] at hended
      cases hended
    · exact ⟨hrecv, (hs.ended hterminal).imp_right .inl⟩
  | @retired id s here _ _ drained =>
    have hlookup (id' : StreamId) (s' : StreamState) (h' : (c.streams.erase id)[id']? = some s') :
        c.streams[id']? = some s' := by
      rw [Std.TreeMap.getElem?_erase] at h'
      split at h'
      · cases h'
      · exact h'
    refine ⟨?_, fun id' s' h' => hc.kept id' s' (hlookup id' s' h'),
      fun id' s' h' => hc.own id' s' (hlookup id' s' h')⟩
    have htotal := total_erase heldBytes here
    have hnone : heldBytes s = 0 := by rw [heldBytes, drained]; rfl
    have hold := hc.books
    simp only [held] at hold ⊢
    omega

section Runs
variable [Dwnx ν] [AsyncByteStream β]

/-- Connection credit over every run of critical sections: while the core has no terminal, the
bytes routed are the bytes credited and the bytes held, and a stream whose receive handle is gone
holds none. -/
theorem receiveCredit (lower : Connection β ν) (limit fuel : ℕ) (secs : List Section)
    (quiet : NoDataAfterEnd (run (Section.step fuel) secs (Core.new lower limit)).2.routed)
    (opens : OpensNew (run (Section.step fuel) secs (Core.new lower limit)).2)
    (live : (run (Section.step fuel) secs (Core.new lower limit)).2.terminal = none) :
    let c := (run (Section.step fuel) secs (Core.new lower limit)).2
    routedBytes c.routed + credited lower.conn.calls = credited c.lower.conn.calls + held c ∧
    ∀ (id : StreamId) (s : StreamState), c.streams[id]? = some s → s.pendingAccept = false →
      s.recvHandle = false → s.recv = [] := by
  have hbalanced := run_keeps (H := Orderly)
    (I := fun c : Core β ν => c.terminal = none → Balanced (credited lower.conn.calls) c)
    (fun c d => Orderly.past)
    (fun sec c d hstep hd hc hlive => (hc (live_before hstep hlive)).step hstep hd hlive)
    fuel secs (Core.new lower limit) (fun _ => balanced_new lower limit) ⟨quiet, opens⟩ live
  refine ⟨hbalanced.books, ?_⟩
  intro id s here hpending hhandle
  exact ((hbalanced.kept id s here).drained hpending hhandle).1

end Runs

/-- Three bytes arrive; two are read and the third is still held. -/
theorem receiveCredit_one_held :
    let secs : List Section := [.route (.streamData ⟨1, by decide⟩ 0 [7, 8] false), .accept .bidi 5,
      .pollData ⟨1, by decide⟩ 5, .route (.streamData ⟨1, by decide⟩ 2 [9] true)]
    let lower : Connection ScriptedStream ScriptedDwnx := .new {} {} .client 100
    let c := (run (Section.step 1) secs (Core.new lower 2)).2
    routedBytes c.routed = 3 ∧ credited c.lower.conn.calls = 2 ∧
      routedBytes c.routed + 0 = credited c.lower.conn.calls + held c := by
  intro secs lower c
  have hrouted : c.routed = [.streamData ⟨1, by decide⟩ 0 [7, 8] false,
      .streamData ⟨1, by decide⟩ 2 [9] true] := by decide +kernel
  have hopened : openedIds c.lower.conn.calls = [] := by decide +kernel
  have hquiet : NoDataAfterEnd c.routed := by
    rw [hrouted]
    rintro before event after id hsplit - - ⟨ending, hending, hends⟩
    -- the only end is the last event
    rcases before with _ | ⟨first, _ | ⟨second, more⟩⟩ <;> simp at hsplit hending
    subst hending
    rw [← hsplit.1] at hends
    cases hends.2
  have hopens : OpensNew c := by
    refine ⟨by rw [hopened]; exact List.nodup_nil, ?_⟩
    intro kind id hcall
    have hid : id ∈ openedIds c.lower.conn.calls := List.mem_filterMap.mpr ⟨_, hcall, rfl⟩
    rw [hopened] at hid
    cases hid
  have hcredit := receiveCredit lower 2 1 secs hquiet hopens (by decide +kernel)
  exact ⟨by decide +kernel, by decide +kernel, hcredit.1⟩

end Ngnet.HyperiumReceiveCredit
