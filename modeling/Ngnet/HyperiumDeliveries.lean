import Ngnet.Histories
import Ngnet.HyperiumDriver
import Ngnet.HyperiumReceiveCredit
import Ngnet.HyperiumReceiveHalves

/-!
# What arrived before the ending

`poll_data` and `accept` of `h3-ngnet-qmux` look at the terminal before they look at what is
queued. What was routed to a stream is read in order, but an ending that the driver learns of while
bytes, a FIN or a stream are still queued is reported in their place. A run delivers everything that
arrived exactly if its readers and acceptors had caught up, and no window refuses to be extended
over what is being read.
-/

namespace Ngnet.HyperiumDeliveries
open QmuxVarints QmuxCloseCodec QmuxErrors QmuxStreams StatefulPrograms QmuxRecordWriter
open QmuxConnection HyperiumCore Core HyperiumHandles HyperiumSteps HyperiumDriver HyperiumReceiveCredit
open HyperiumReceiveHalves Histories Relation

variable {β ν : Type}

/-! ## What arrived -/

/-- The bytes of the stream that an event carries. -/
def bytesOf (id : StreamId) : Event → Option Bytes
  | .streamData id' _ data _ => if id' = id ∧ data ≠ [] then some data else none
  | _ => none

/-- The bytes routed to a stream, event by event. -/
def dataOf (id : StreamId) (routed : List Event) : List Bytes := routed.filterMap (bytesOf id)

/-- The event ends the stream without a FIN. -/
def breaksOff (id : StreamId) : Event → Prop
  | .streamReset id' _ _ | .streamClosed id' _ _ => id' = id
  | _ => False

/-- A FIN of the stream was routed. One without bytes ends nothing that had ended already. -/
def Finished (id : StreamId) (routed : List Event) : Prop :=
  ∃ before offset data after, routed = before ++ .streamData id offset data true :: after ∧
    (data = [] → ∀ event ∈ before, ¬ breaksOff id event)

def ending (c : Core β ν) (id : StreamId) : Option DirectionTerminal := (half c id).bind Half.ending

theorem dataOf_concat (id : StreamId) (routed : List Event) (event : Event) :
    dataOf id (routed ++ [event]) = dataOf id routed ++ (bytesOf id event).toList := by
  rw [dataOf, List.filterMap_append, dataOf]
  cases hbytes : bytesOf id event <;> simp [hbytes]

theorem finished_concat {id : StreamId} {routed : List Event} {event : Event}
    (h : Finished id (routed ++ [event])) : Finished id routed ∨
      ∃ offset data, event = .streamData id offset data true ∧
        (data = [] → ∀ event ∈ routed, ¬ breaksOff id event) := by
  obtain ⟨before, offset, data, after, heq, hfirst⟩ := h
  induction after using List.reverseRecOn with
  | nil =>
    obtain ⟨rfl, hlast⟩ := List.append_inj' heq rfl
    cases hlast
    exact .inr ⟨offset, data, rfl, hfirst⟩
  | append_singleton after last _ =>
    rw [← List.cons_append, ← List.append_assoc] at heq
    obtain ⟨rfl, -⟩ := List.append_inj' heq rfl
    exact .inl ⟨before, offset, data, after, rfl, hfirst⟩

/-! ## Books of one stream -/

/-- What was routed to a stream is what was read of it, in order, and what is queued. -/
structure Books (id : StreamId) (read : List Bytes) (c : Core β ν) : Prop where
  unshut : ∀ h, half c id = some h → h.shut = false
  idle : ∀ h, half c id = some h → h.expected = false → c.receiveDirectionValid id = false
  valid : ∀ event ∈ c.routed, carries id event → c.receiveDirectionValid id = true
  inOrder : dataOf id c.routed = read ++ (queued c id).map (·.data)
  calm : (∀ event ∈ c.routed, ¬ breaksOff id event) → ending c id = none ∨ ending c id = some .finished
  fins : Finished id c.routed → (∃ item ∈ queued c id, item.fin = true) ∨ ending c id = some .finished

/-- The connection ended over what the peer sent, or the books are kept. -/
def Kept (id : StreamId) (read : List Bytes) (c : Core β ν) : Prop := Refused c ∨ Books id read c

section Steps
variable {id : StreamId} {read : List Bytes} {c d : Core β ν}

theorem receiveDirectionValid_same (role : d.role = c.role) (id : StreamId) :
    d.receiveDirectionValid id = c.receiveDirectionValid id := by
  rw [receiveDirectionValid, receiveDirectionValid, localInitiator, localInitiator, role]

theorem Books.same (h : Books id read c) (routed : d.routed = c.routed) (role : d.role = c.role)
    (same : half d id = half c id) : Books id read d := by
  have hvalid := receiveDirectionValid_same role id
  have hqueued : queued d id = queued c id := by rw [queued, queued, same]
  have hending : ending d id = ending c id := by rw [ending, ending, same]
  constructor
  · rw [same]
    exact h.unshut
  · rw [same, hvalid]
    exact h.idle
  · rw [routed, hvalid]
    exact h.valid
  · rw [routed, hqueued]
    exact h.inOrder
  · rw [routed, hending]
    exact h.calm
  · rw [routed, hqueued, hending]
    exact h.fins

variable {event : Event}

theorem Books.bystander (h : Books id read c) (routed : d.routed = c.routed ++ [event])
    (role : d.role = c.role) (silent : ¬ carries id event) (same : half d id = half c id ∨
      half c id = none ∧ half d id = some {}) : Books id read d := by
  have hvalid := receiveDirectionValid_same role id
  have hqueued : queued d id = queued c id := by
    rcases same with heq | ⟨hnone, hnew⟩
    · rw [queued, queued, heq]
    · rw [queued, queued, hnone, hnew]
      rfl
  have hending : ending d id = ending c id := by
    rcases same with heq | ⟨hnone, hnew⟩
    · rw [ending, ending, heq]
    · rw [ending, ending, hnone, hnew]
      rfl
  have hbytes : bytesOf id event = none := by
    cases event with
    | streamData id' _ data _ => exact if_neg fun hand => silent hand.1
    | _ => rfl
  constructor
  · intro h' hhalf
    rcases same with heq | ⟨-, hnew⟩
    · exact h.unshut h' (heq ▸ hhalf)
    · rw [hnew] at hhalf
      cases hhalf
      rfl
  · intro h' hhalf hunexpected
    rw [hvalid]
    rcases same with heq | ⟨-, hnew⟩
    · exact h.idle h' (heq ▸ hhalf) hunexpected
    · rw [hnew] at hhalf
      cases hhalf
      cases hunexpected
  · intro event' hevent hcarries
    rw [hvalid]
    rw [routed] at hevent
    rcases List.mem_append.mp hevent with hevent | hevent
    · exact h.valid event' hevent hcarries
    · rw [List.mem_singleton.mp hevent] at hcarries
      exact absurd hcarries silent
  · rw [routed, dataOf_concat, hbytes, hqueued, h.inOrder]
    simp
  · intro hcalm
    rw [hending]
    apply h.calm
    intro event' hevent
    apply hcalm
    rw [routed]
    exact List.mem_append_left _ hevent
  · intro hfin
    rw [hqueued, hending]
    rw [routed] at hfin
    rcases finished_concat hfin with hfin | ⟨offset, data, rfl, -⟩
    · exact h.fins hfin
    · exact absurd rfl silent

theorem Books.broken (ended : DirectionTerminal) (h : Books id read c)
    (routed : d.routed = c.routed ++ [event]) (role : d.role = c.role) (broken : breaksOff id event)
    (ends : half d id = (half c id).map (·.endWith ended)) : Books id read d := by
  have hvalid := receiveDirectionValid_same role id
  have hqueued : queued d id = queued c id := by
    rw [queued, queued, ends]
    cases half c id <;> rfl
  have hsilent : ¬ carries id event := by
    intro hcarries
    cases event with
    | streamData id' _ _ _ => cases broken
    | _ => cases hcarries
  have hbytes : bytesOf id event = none := by cases event <;> first | rfl | cases broken
  constructor
  · intro h' hhalf
    rw [ends] at hhalf
    obtain ⟨old, hold, rfl⟩ := Option.map_eq_some_iff.mp hhalf
    exact h.unshut old hold
  · intro h' hhalf hunexpected
    rw [hvalid]
    rw [ends] at hhalf
    obtain ⟨old, hold, rfl⟩ := Option.map_eq_some_iff.mp hhalf
    exact h.idle old hold hunexpected
  · intro event' hevent hcarries
    rw [hvalid]
    rw [routed] at hevent
    rcases List.mem_append.mp hevent with hevent | hevent
    · exact h.valid event' hevent hcarries
    · rw [List.mem_singleton.mp hevent] at hcarries
      exact absurd hcarries hsilent
  · rw [routed, dataOf_concat, hbytes, hqueued, h.inOrder]
    simp
  · intro hcalm
    refine absurd broken (hcalm event ?_)
    rw [routed]
    exact List.mem_append_right _ (List.mem_singleton.mpr rfl)
  · intro hfin
    rw [hqueued]
    rw [routed] at hfin
    rcases finished_concat hfin with hfin | ⟨offset, data, rfl, -⟩
    · refine (h.fins hfin).imp_right ?_
      rw [ending, ending, ends]
      cases half c id with
      | none => nofun
      | some old =>
        intro hold
        have hold' : old.ending = some .finished := hold
        simp [Half.endWith, hold']
    · exact absurd rfl hsilent

theorem Books.arrive {offset : ℕ} {data : Bytes} {fin : Bool} (h : Books id read c)
    (routed : d.routed = c.routed ++ [.streamData id offset data fin]) (role : d.role = c.role)
    (valid : c.receiveDirectionValid id = true)
    (arrives : half d id = some (((half c id).getD {}).take data fin)) : Books id read d := by
  have hvalid := receiveDirectionValid_same role id
  have hopen : ((half c id).getD {}).shut = false := by
    cases hold : half c id with
    | none => rfl
    | some old => exact h.unshut old hold
  have hold : queued c id = ((half c id).getD {}).queue := by rw [queued]; cases half c id <;> rfl
  have hwas : ending c id = ((half c id).getD {}).ending := by rw [ending]; cases half c id <;> rfl
  have hqueued : queued d id = queued c id ++ if data ≠ [] then [⟨data, fin⟩] else [] := by
    rw [queued, arrives, hold, Half.take, hopen]
    by_cases hdata : data = []
    · by_cases hfin : (fin && ((half c id).getD {}).ending.isNone) = true <;> simp [hdata, hfin]
    · simp [hdata]
  have hending : ending d id = if data = [] ∧ fin = true then (ending c id).or (some .finished)
      else ending c id := by
    rw [ending, arrives, hwas, Half.take, hopen]
    by_cases hdata : data = []
    · cases fin <;> cases hended : ((half c id).getD {}).ending <;> simp [hdata, hended]
    · simp [hdata]
  constructor
  · intro h' hhalf
    rw [arrives] at hhalf
    cases hhalf
    rw [Half.take, hopen]
    by_cases hdata : data = []
    · by_cases hfin : (fin && ((half c id).getD {}).ending.isNone) = true <;> simp [hdata, hfin, hopen]
    · simp [hdata]
  · intro h' hhalf hunexpected
    have hsame : h'.expected = ((half c id).getD {}).expected := by
      rw [arrives] at hhalf
      cases hhalf
      rw [Half.take, hopen]
      by_cases hdata : data = []
      · by_cases hfin : (fin && ((half c id).getD {}).ending.isNone) = true <;> simp [hdata, hfin]
      · simp [hdata]
    rw [hvalid]
    rw [hsame] at hunexpected
    cases hhalf' : half c id with
    | none =>
      rw [hhalf'] at hunexpected
      cases hunexpected
    | some old =>
      rw [hhalf'] at hunexpected
      exact h.idle old hhalf' hunexpected
  · intro event' _ _
    rw [hvalid]
    exact valid
  · rw [routed, dataOf_concat, hqueued, h.inOrder, bytesOf]
    by_cases hdata : data = [] <;> simp [hdata]
  · intro hcalm
    have hbefore : ending c id = none ∨ ending c id = some .finished := by
      apply h.calm
      intro event' hevent
      apply hcalm
      rw [routed]
      exact List.mem_append_left _ hevent
    rw [hending]
    rcases hbefore with heq | heq
    · rw [heq]
      split <;> simp
    · rw [heq]
      split <;> simp
  · intro hfin
    have hbefore : Finished id c.routed → (∃ item ∈ queued d id, item.fin = true) ∨
        ending d id = some .finished := by
      intro hfin
      rcases h.fins hfin with ⟨item, hitem, hlast⟩ | hended
      · left
        refine ⟨item, ?_, hlast⟩
        rw [hqueued]
        exact List.mem_append_left _ hitem
      · right
        rw [hending, hended]
        split <;> rfl
    rw [routed] at hfin
    rcases finished_concat hfin with hfin | ⟨offset', data', heq, hcalm⟩
    · exact hbefore hfin
    · obtain ⟨rfl, rfl, rfl⟩ : offset = offset' ∧ data = data' ∧ fin = true := by simpa using heq
      by_cases hdata : data = []
      · right
        rw [hending, if_pos ⟨hdata, rfl⟩]
        rcases h.calm (hcalm hdata) with heq | heq <;> rw [heq] <;> rfl
      · left
        refine ⟨⟨data, true⟩, ?_, rfl⟩
        rw [hqueued, if_pos hdata]
        exact List.mem_append_right _ (List.mem_singleton.mpr rfl)

theorem Books.hear (h : Books id read c) (routed : d.routed = c.routed ++ [event])
    (role : d.role = c.role) (valid : carries id event → c.receiveDirectionValid id = true)
    (heard : half d id = hearing id event (half c id)) : Books id read d := by
  by_cases hcarries : carries id event
  · cases event with
    | streamData id' offset data fin =>
      obtain rfl : id' = id := hcarries
      rw [hearing_data, if_pos rfl] at heard
      exact h.arrive routed role (valid rfl) heard
    | _ => cases hcarries
  by_cases hbroken : breaksOff id event
  · cases event with
    | streamClosed id' rx tx =>
      obtain rfl : id' = id := hbroken
      refine h.broken (closedWith rx) routed role rfl ?_
      rw [heard]
      cases half c id' <;> simp [hearing, Half.hear, discovered]
    | streamReset id' size code =>
      obtain rfl : id' = id := hbroken
      refine h.broken (.reset code) routed role rfl ?_
      rw [heard]
      cases half c id' <;> simp [hearing, Half.hear, discovered]
    | _ => cases hbroken
  · refine h.bystander routed role hcarries ?_
    have hhear (h : Half) : h.hear id event = h := by
      cases event with
      | streamData id' _ _ _ => exact if_neg hcarries
      | streamClosed id' _ _ => exact if_neg hbroken
      | streamReset id' _ _ => exact if_neg hbroken
      | _ => rfl
    rw [heard]
    cases half c id with
    | none =>
      by_cases hnew : discovered event = some id
      · right
        rw [hearing, if_pos hnew, hhear]
        exact ⟨rfl, rfl⟩
      · left
        rw [hearing, if_neg hnew]
    | some old =>
      left
      rw [hearing, hhear]

theorem refused_ends (h : Refused c) (ends : EndsOnce c d) : Refused d := by
  obtain ⟨t, ht, hwhy⟩ := h
  rcases ends with ⟨hterminal, hfailure⟩ | ⟨hnone, -⟩
  · exact ⟨t, hterminal.trans ht, hwhy.imp_left hfailure.trans⟩
  · rw [ht] at hnone
    cases hnone

theorem Kept.step (h : HalfStep id c d) (hc : Kept id read c) : Kept id read d := by
  have hopen (hends : EndsOnce c d) (hbooks : Books id read c → Books id read d) : Kept id read d :=
    hc.imp (fun h => refused_ends h hends) hbooks
  cases h with
  | quiet routed role ends same => exact hopen ends fun h => h.same routed role same
  | heard _ live routed role heard =>
    rcases heard with hrefused | ⟨hvalid, hheard⟩
    · exact .inl hrefused
    · rcases hc with ⟨t, ht, -⟩ | hbooks
      · rw [live] at ht
        cases ht
      · exact .inr (hbooks.hear routed role hvalid hheard)
  | @accepted h routed role ends here handed =>
    apply hopen ends
    intro hbooks
    have hvalid := receiveDirectionValid_same role id
    have hqueued : queued d id = queued c id := by rw [queued, queued, here, handed]; rfl
    have hending : ending d id = ending c id := by rw [ending, ending, here, handed]; rfl
    constructor
    · intro h' hhalf
      rw [handed] at hhalf
      cases hhalf
      exact hbooks.unshut h here
    · intro h' hhalf hunexpected
      rw [handed] at hhalf
      cases hhalf
      cases hunexpected
    · rw [routed, hvalid]
      exact hbooks.valid
    · rw [routed, hqueued]
      exact hbooks.inOrder
    · rw [routed, hending]
      exact hbooks.calm
    · rw [routed, hqueued, hending]
      exact hbooks.fins
  | opened expected routed role ends unknown fresh sends =>
    apply hopen ends
    intro hbooks
    have hvalid := receiveDirectionValid_same role id
    have hqueued : queued d id = queued c id := by rw [queued, queued, unknown, fresh]; rfl
    have hending : ending d id = ending c id := by rw [ending, ending, unknown, fresh]; rfl
    constructor
    · intro h' hhalf
      rw [fresh] at hhalf
      cases hhalf
      rfl
    · intro h' hhalf hunexpected
      rw [fresh] at hhalf
      cases hhalf
      rw [hvalid]
      exact sends hunexpected
    · rw [routed, hvalid]
      exact hbooks.valid
    · rw [routed, hqueued]
      exact hbooks.inOrder
    · rw [routed, hending]
      exact hbooks.calm
    · rw [routed, hqueued, hending]
      exact hbooks.fins
  | @retired h routed role ends here unexpected drained gone =>
    apply hopen ends
    intro hbooks
    have hvalid := receiveDirectionValid_same role id
    have hinvalid := hbooks.idle h here unexpected
    have hqueued : queued d id = queued c id := by rw [queued, queued, here, gone]; exact drained.symm
    have hending : ending d id = none := by rw [ending, gone]; rfl
    constructor
    · rw [gone]
      nofun
    · rw [gone]
      nofun
    · rw [routed, hvalid]
      exact hbooks.valid
    · rw [routed, hqueued]
      exact hbooks.inOrder
    · intro _
      exact .inl hending
    · -- no FIN was routed to a stream that only sends
      rintro ⟨before, offset, data, after, hsplit, -⟩
      rw [routed] at hsplit
      have hreceives : c.receiveDirectionValid id = true := by
        refine hbooks.valid (.streamData id offset data true) ?_ rfl
        rw [hsplit]
        simp
      rw [hinvalid] at hreceives
      cases hreceives

theorem Kept.steps (h : ReflTransGen (HalfStep id) c d) (hc : Kept id read c) : Kept id read d :=
  invariant_of_steps (I := Kept id read) (fun _ _ => Kept.step) h hc

end Steps

/-! ## Opening -/

/-- The native library opened every stream of this side that is known. -/
def Own (c : Core β ν) : Prop := ∀ id s, c.streams[id]? = some s → id.initiator = c.localInitiator →
  id ∈ openedIds c.lower.conn.calls

theorem own_new (lower : Connection β ν) (limit : ℕ) : Own (Core.new lower limit) := by
  intro id s here
  cases (Std.TreeMap.getElem?_emptyc).symm.trans here

section Opening
variable {c d : Core β ν} {sec : Section} {id : StreamId}

/-- A stream that is known now was known before, is one of the peer, or was opened below. -/
def Known (c d : Core β ν) : Prop := ∀ (id : StreamId) (s : StreamState), d.streams[id]? = some s →
  (∃ t, c.streams[id]? = some t) ∨ id.initiator ≠ c.localInitiator ∨ id ∈ openedIds d.lower.conn.calls

/-- No stream becomes known. -/
def SameKeys (c d : Core β ν) : Prop :=
  ∀ (id : StreamId) (s : StreamState), d.streams[id]? = some s → ∃ t, c.streams[id]? = some t

theorem SameKeys.known (h : SameKeys c d) : Known c d := fun id s here => .inl (h id s here)

theorem sameKeys_of_streams (h : d.streams = c.streams) : SameKeys c d := by
  intro id s here
  rw [h] at here
  exact ⟨s, here⟩

theorem sameKeys_insert {s t : StreamState} (here : c.streams[id]? = some s)
    (h : d.streams = c.streams.insert id t) : SameKeys c d := by
  intro id' s' here'
  rw [h] at here'
  rcases lookup_insert here' with ⟨rfl, -⟩ | here'
  · exact ⟨s, here⟩
  · exact ⟨s', here'⟩

theorem SameKeys.fail (h : SameKeys c d) (terminal : ConnectionTerminal) : SameKeys c (d.fail terminal) := by
  intro id s here
  rw [fail_lookup] at here
  obtain ⟨t, ht, -⟩ := Option.map_eq_some_iff.mp here
  exact h id t ht

theorem known_met (met : Met c id d) : Known c d := by
  rcases met with rfl | ⟨fresh, rfl⟩
  · exact (sameKeys_of_streams rfl).known
  · intro id' s here
    rw [enqueue_streams] at here
    rcases lookup_insert here with ⟨rfl, -⟩ | here
    · exact .inr (.inl fresh.peer)
    · exact .inl ⟨s, here⟩

theorem step_known (h : CoreStep sec c d) : Known c d := by
  cases h with
  | observed _ met =>
    rcases met with rfl | ⟨id, -, met⟩
    · exact (sameKeys_of_streams rfl).known
    · exact fun id' s' here => known_met met id' s' here
  | @arrived e id s offset data fin valid met here _ _ =>
    intro id' s' here'
    rcases lookup_insert here' with ⟨rfl, -⟩ | here'
    · exact known_met met id s here
    · exact known_met met id' s' here'
  | @failed d id terminal bytes below routed losing same =>
    apply SameKeys.known
    apply SameKeys.fail
    rcases losing with heq | ⟨s, t, here, heq, -⟩
    · exact sameKeys_of_streams heq
    · exact sameKeys_insert here heq
  | @overloaded d routed same =>
    apply SameKeys.known
    rw [overload]
    apply SameKeys.fail
    rw [same]
    exact sameKeys_of_streams rfl
  | closed _ =>
    apply SameKeys.known
    rw [requestClose]
    split
    · exact sameKeys_of_streams rfl
    · apply SameKeys.fail
      exact sameKeys_of_streams rfl
  | @accepted kind id rest s asked first here =>
    apply SameKeys.known
    apply sameKeys_insert (t := s.accept kind) here
    cases kind <;> rfl
  | @panicked kind id rest first _ =>
    apply SameKeys.known
    apply sameKeys_of_streams
    cases kind <;> rfl
  | @openedStream kind id l below calls =>
    intro id' s' here'
    rcases lookup_insert here' with ⟨rfl, -⟩ | here'
    · right; right
      apply (openedIds_past calls).subset
      rw [openedIds, List.filterMap_append]
      exact List.mem_append_right _ (List.mem_singleton.mpr rfl)
    · exact .inl ⟨s', here'⟩
  | swept _ =>
    apply SameKeys.known
    intro id' s' here'
    rw [getElem?_mapStreams] at here'
    obtain ⟨t, ht, -⟩ := Option.map_eq_some_iff.mp here'
    exact ⟨t, ht⟩
  | updated here _ => exact (sameKeys_insert here rfl).known
  | read here _ _ => exact (sameKeys_insert here rfl).known
  | @readLast id s item rest l here _ _ _ =>
    intro id' s' here'
    rcases lookup_insert here' with ⟨rfl, -⟩ | here'
    · exact .inl ⟨s, here⟩
    · rcases lookup_insert here' with ⟨rfl, -⟩ | here'
      · exact .inl ⟨s, here⟩
      · exact .inl ⟨s', here'⟩
  | discarded here _ _ => exact (sameKeys_insert here rfl).known
  | dropped here _ => exact (sameKeys_insert here rfl).known
  | retired here _ _ _ =>
    apply SameKeys.known
    intro id' s' here'
    rw [Std.TreeMap.getElem?_erase] at here'
    split at here'
    · cases here'
    · exact ⟨s', here'⟩
  | _ => exact (sameKeys_of_streams rfl).known

theorem own_step (h : CoreStep sec c d) (hc : Own c) : Own d := by
  have hgrows := step_grows h
  intro id s here hlocal
  rw [← localInitiator_past hgrows] at hlocal
  rcases step_known h id s here with ⟨t, ht⟩ | hpeer | hopened
  · exact (openedIds_past hgrows.calls).subset (hc id t ht hlocal)
  · exact absurd hlocal hpeer
  · exact hopened

variable [Dwnx ν]

theorem openStream_halves (id : StreamId) (own : Own c) (opener : ℕ) (kind : OpenKind) (waker : Waker) :
    Ensures (openStream opener kind waker) c (fun _ d => OpensNew d → ReflTransGen (HalfStep id) c d)
      fun _ d => OpensNew d → ReflTransGen (HalfStep id) c d := by
  rw [openStream, ensures_get]
  cases c.terminal with
  | some terminal => exact ensures_pure.mpr fun _ => .refl
  | none =>
    apply ensures_lowerCall (tryOpen_below kind.directionality c.lower)
    · rintro result l ⟨below, hcalls⟩
      cases result with
      | blocked =>
        rw [ensures_modify, ensures_pure]
        exact fun _ => (lower_quiet l).trans (parkOpen_quiet opener kind waker)
      | opened new =>
        rw [ensures_modify, ensures_pure]
        intro hnew
        have hstart := hcalls new rfl
        obtain ⟨hlocal, hkind⟩ := hnew.own kind.directionality new
          (hstart.subset (List.mem_append_right _ (List.mem_singleton.mpr rfl)))
        have hlocal' : new.initiator = c.localInitiator := hlocal
        have hunknown : c.streams[new]? = none := by
          cases here : c.streams[new]? with
          | none => rfl
          | some s =>
            have hopened : openedIds c.lower.conn.calls ++ [new] <+: openedIds l.conn.calls := by
              have hpast := openedIds_past hstart
              rw [openedIds, openedIds, List.filterMap_append] at hpast
              exact hpast
            have honce := hnew.once.sublist hopened.sublist
            exact absurd rfl ((List.nodup_append.mp honce).2.2 new (own new s here hlocal') new
              (List.mem_singleton.mpr rfl))
        refine (lower_quiet l).trans (.single ?_)
        have hset (s : StreamState) : half ({ c with lower := l }.setStream new s) id =
            if new = id then some (receiveHalf s) else half c id := half_setStream s
        by_cases heq : new = id
        · subst heq
          refine .opened (decide (kind = .bidi)) rfl rfl (.refl _) ?_ ?_ ?_
          · show half c new = none
            rw [half, hunknown]
            rfl
          · rw [hset, if_pos rfl]
            rfl
          · intro hsends
            cases kind with
            | bidi => cases hsends
            | uni =>
              have hlocal'' : new.initiator = ({ c with lower := l } : Core β ν).localInitiator := hlocal'
              have hkind' : new.directionality = .unidirectional := hkind
              simp [receiveDirectionValid, hlocal'', hkind']
        · refine .quiet rfl rfl (.refl _) ?_
          rw [hset, if_neg heq]
          rfl
    · intro error l _
      rw [ensures_modify, ensures_pure]
      exact fun _ => (lower_quiet l).trans (fail_quiet _)

end Opening

/-! ## Reading -/

/-- Both windows can be extended by what is read. -/
def Extends (l : Connection β ν) [Dwnx ν] (id : StreamId) (bytes : ℕ) : Prop := ∃ m, creditRead id bytes l = .ok ⟨⟩ m

theorem extends_of_outcome [Dwnx ν] {l : Connection β ν} {id : StreamId} {bytes : ℕ}
    (h : (outcome (creditRead id bytes) l).1 = .ok ⟨⟩) : Extends l id bytes := by
  rw [outcome] at h
  split at h
  · rename_i hrun
    exact ⟨_, hrun⟩
  · cases h

/-- What a drained stream answers its reader. -/
def drainedAnswer : Option DirectionTerminal → Poll (Except StreamError (Option Bytes))
  | some .finished | some (.stopped _) => .ready (.ok none)
  | some (.reset code) => .ready (.error (.terminated code))
  | none => .pending

/-- What a poll of the stream answers, and the core it leaves. -/
inductive Polled [Dwnx ν] (id : StreamId) (c : Core β ν) : Poll (Except StreamError (Option Bytes)) → Core β ν → Prop
  | ended {t : ConnectionTerminal} {d : Core β ν} (ended : c.terminal = some t) (close : d.close = c.close)
      (goes : ReflTransGen (HalfStep id) c d) : Polled id c (.ready (.error t.streamError)) d
  | read {item : Received} {rest : List Received} {h : Half} {d : Core β ν} (live : c.terminal = none)
      (here : half c id = some h) (first : h.queue = item :: rest) (extended : Extends c.lower id item.data.length)
      (routed : d.routed = c.routed) (role : d.role = c.role)
      (popped : half d id = some { h with queue := rest, ending := if item.fin then some .finished else h.ending }) :
      Polled id c (.ready (.ok (some item.data))) d
  | refused {item : Received} {rest : List Received} {error : Error} {d : Core β ν} (live : c.terminal = none)
      (first : queued c id = item :: rest) (refused : ¬ Extends c.lower id item.data.length)
      (terminal : d.terminal = some (.fromLower error)) (close : d.close = c.close)
      (failure : d.closeIsFailure = c.closeIsFailure) :
      Polled id c (.ready (.error (ConnectionTerminal.fromLower error).streamError)) d
  | drained {d : Core β ν} (live : c.terminal = none) (drained : queued c id = [])
      (goes : ReflTransGen (HalfStep id) c d) : Polled id c (drainedAnswer (ending c id)) d

/-- The bytes that a poll returns. -/
def returned : Poll (Except StreamError (Option Bytes)) → Option Bytes
  | .ready (.ok data) => data
  | _ => none

section Reading
variable [Dwnx ν] {c d : Core β ν} {id : StreamId}

theorem pollData_polled (id : StreamId) (waker : Waker) (c : Core β ν) :
    Ensures (pollData id waker) c (fun poll d => Polled id c poll d) fun _ _ => False := by
  have hdrained (live : c.terminal = none) (hqueued : queued c id = []) :
      Ensures (match c.streamError id false with
        | some .finished | some (.stopped _) => pure (.ready (.ok none))
        | some (.reset code) => pure (.ready (.error (.terminated code)))
        | none => do
          set (c.parkRecv id waker)
          pure .pending : CoreM β ν (Poll (Except StreamError (Option Bytes)))) c
        (fun poll d => Polled id c poll d) fun _ _ => False := by
    have hending : c.streamError id false = ending c id := by
      rw [streamError, ending, half]
      cases c.streams[id]? <;> rfl
    have hpolled {d : Core β ν} := Polled.drained (d := d) live hqueued
    rw [hending]
    cases hended : ending c id with
    | none =>
      rw [hended] at hpolled
      dsimp only
      rw [ensures_bind, ensures_of_ok set_apply, ensures_pure]
      exact hpolled (parkRecv_quiet waker)
    | some ended =>
      rw [hended] at hpolled
      cases ended <;> exact ensures_pure.mpr (hpolled .refl)
  rw [pollData, ensures_get]
  cases hterminal : c.terminal with
  | some t => exact ensures_pure.mpr (.ended hterminal rfl .refl)
  | none =>
    cases here : c.streams[id]? with
    | none =>
      apply hdrained hterminal
      rw [queued, half, here]
      rfl
    | some s =>
      have hhalf := half_of_lookup here
      cases hrecv : s.recv with
      | nil =>
        simp only [Option.map_some, hrecv]
        apply hdrained hterminal
        rw [queued, hhalf]
        exact hrecv
      | cons item rest =>
        simp only [Option.map_some, hrecv]
        rw [ensures_bind, ensures_of_ok set_apply, ensures_bind, lowerCall, ensures_within, ensures_attempt]
        show Ensures (creditRead id item.data.length) c.lower _ _
        cases hcredit : (creditRead id item.data.length : ConnectionM β ν Unit) c.lower with
        | ok _ l =>
          apply (ensures_of_ok hcredit).mpr
          dsimp only
          split
          · rename_i hfin
            rw [ensures_modify, ensures_modify, ensures_pure, updateStream_eq
              (c := { c.setStream id { s with recv := rest } with lower := l }) setStream_lookup]
            refine .read hterminal hhalf hrecv ⟨l, hcredit⟩ rfl rfl ?_
            refine (half_setStream _).trans ?_
            rw [if_pos rfl, if_pos hfin]
            rfl
          · rename_i hfin
            rw [ensures_modify, ensures_pure]
            refine .read hterminal hhalf hrecv ⟨l, hcredit⟩ rfl rfl ?_
            refine (half_setStream _).trans ?_
            rw [if_pos rfl, if_neg hfin]
            rfl
        | error e l =>
          obtain ⟨⟨error, rfl⟩, -⟩ := (ensures_of_error hcredit).mp (creditRead_below id item.data.length c.lower)
          apply (ensures_of_error hcredit).mpr
          dsimp only
          rw [failOver, ensures_modify, ensures_pure]
          have hqueued : queued c id = item :: rest := by
            rw [queued, hhalf]
            exact hrecv
          refine .refused hterminal hqueued ?_ ?_ ?_ ?_
          · rintro ⟨m, hm⟩
            rw [hm] at hcredit
            cases hcredit
          · refine fail_terminal_live ?_ _
            exact hterminal
          · rw [fail_close]
            rfl
          · rw [fail_closeIsFailure]
            rfl

theorem Kept.polled {read : List Bytes} {poll : Poll (Except StreamError (Option Bytes))} (h : Polled id c poll d)
    (extended : c.terminal = none → ∀ item rest, queued c id = item :: rest → Extends c.lower id item.data.length)
    (hc : Kept id read c) : Kept id (read ++ (returned poll).toList) d := by
  cases h with
  | ended hended close goes =>
    simp only [returned, Option.toList_none, List.append_nil]
    exact hc.steps goes
  | refused live first refused _ _ _ => exact absurd (extended live _ _ first) refused
  | drained live drained goes =>
    have hnone : returned (drainedAnswer (ending c id)) = none := by
      cases hending : ending c id with
      | none => rfl
      | some ended => cases ended <;> rfl
    rw [hnone, Option.toList_none, List.append_nil]
    exact hc.steps goes
  | @read item rest h d live here first extended routed role popped =>
    rcases hc with ⟨t, ht, -⟩ | hbooks
    · rw [live] at ht
      cases ht
    have hvalid := receiveDirectionValid_same role id
    have hbefore : queued c id = item :: rest := by rw [queued, here]; exact first
    have hqueued : queued d id = rest := by rw [queued, popped]; rfl
    have hwas : ending c id = h.ending := by rw [ending, here]; rfl
    have hending : ending d id = if item.fin then some .finished else ending c id := by
      rw [hwas, ending, popped]
      rfl
    right
    constructor
    · intro h' hhalf
      rw [popped] at hhalf
      cases hhalf
      exact hbooks.unshut h here
    · intro h' hhalf hunexpected
      rw [popped] at hhalf
      cases hhalf
      rw [hvalid]
      exact hbooks.idle h here hunexpected
    · rw [routed, hvalid]
      exact hbooks.valid
    · rw [routed, hbooks.inOrder, hbefore, hqueued]
      simp [returned]
    · intro hcalm
      rw [routed] at hcalm
      rw [hending]
      split
      · exact .inr rfl
      · exact hbooks.calm hcalm
    · intro hfin
      rw [routed] at hfin
      rw [hqueued, hending]
      by_cases hlast : item.fin = true
      · right
        rw [if_pos hlast]
      · rw [if_neg hlast]
        refine (hbooks.fins hfin).imp_left ?_
        rw [hbefore]
        rintro ⟨item', hitem, hfin'⟩
        rcases List.mem_cons.mp hitem with rfl | hitem
        · exact absurd hfin' hlast
        · exact ⟨item', hitem, hfin'⟩

theorem Polled.start {poll : Poll (Except StreamError (Option Bytes))}
    (h : Polled id { c with effects := {} } poll d) : Polled id c poll d := by
  have hstart : ReflTransGen (HalfStep id) c { c with effects := {} } := quiet_of_streams rfl rfl rfl (.refl c)
  cases h with
  | ended ended close goes => exact .ended ended close (hstart.trans goes)
  | read live here first extended routed role popped => exact .read live here first extended routed role popped
  | refused live first refused terminal close failure => exact .refused live first refused terminal close failure
  | drained live drained goes => exact .drained live drained (hstart.trans goes)

theorem pollData_step [AsyncByteStream β] (fuel : ℕ) (id : StreamId) (waker : Waker) (c : Core β ν) :
    ∃ poll, ((Section.pollData id waker).step fuel c).1 = .ok (.data poll) ∧
      Polled id c poll ((Section.pollData id waker).step fuel c).2 := by
  rcases Ensures.cases (pollData_polled id waker { c with effects := {} }) with ⟨poll, d, hrun, hpolled⟩ | ⟨_, _, _, h⟩
  · have hmap : (SectionResult.data <$> pollData id waker : CoreM β ν SectionResult) { c with effects := {} } =
        .ok (.data poll) d := bind_ok hrun
    refine ⟨poll, ?_, ?_⟩
    · rw [Section.step, outcome, Section.program, hmap]
    · rw [Section.step, outcome, Section.program, hmap]
      exact hpolled.start
  · cases h

end Reading

/-! ## Runs -/

section Runs
variable [Dwnx ν] [AsyncByteStream β] {c : Core β ν} {id : StreamId}

/-- The section gives the receive half of the stream up. -/
def givesUp (id : StreamId) : Section → Prop
  | .stopSending id' _ | .dropRecv id' => id' = id
  | _ => False

def GivenUp (id : StreamId) (secs : List Section) : Prop := ∃ sec ∈ secs, givesUp id sec

/-- What a section answers behind a run. -/
def answered (fuel : ℕ) (c : Core β ν) (before : List Section) (sec : Section) : Except (Halt Panic) SectionResult :=
  (sec.step fuel (reached fuel before c)).1

/-- The bytes of the stream that an answer returns. -/
def readBy (id : StreamId) : Section → Except (Halt Panic) SectionResult → Option Bytes
  | .pollData id' _, .ok (.data poll) => if id' = id then returned poll else none
  | _, _ => none

/-- What `poll_data` of the stream returned in a run. -/
def readsOf (fuel : ℕ) (id : StreamId) : List Section → Core β ν → List Bytes
  | [], _ => []
  | sec :: rest, c =>
    let (answer, c) := sec.step fuel c
    (readBy id sec answer).toList ++ readsOf fuel id rest c

theorem readsOf_concat (fuel : ℕ) (sec : Section) (before : List Section) :
    ∀ c : Core β ν, readsOf fuel id (before ++ [sec]) c =
      readsOf fuel id before c ++ (readBy id sec (answered fuel c before sec)).toList := by
  induction before with
  | nil =>
    intro c
    simp [readsOf, answered, reached, run]
  | cons first rest ih =>
    intro c
    show (readBy id first _).toList ++ readsOf fuel id (rest ++ [sec]) _ = _
    rw [ih, ← List.append_assoc]
    rfl

/-- The connection ended below, and no handle or overload asked for a close before. -/
def Ended (c : Core β ν) : Prop :=
  (∃ error, c.terminal = some (.fromLower error)) ∧ c.close = none ∧ c.closeIsFailure = false

/-- The connection had ended below at some time of the run. -/
def EndedBelow (fuel : ℕ) (c : Core β ν) (secs : List Section) : Prop :=
  ∃ past, past <+: secs ∧ Ended (reached fuel past c)

/-- A poll of the stream behind its FIN returned the end. -/
def ReturnedEnd (fuel : ℕ) (c : Core β ν) (id : StreamId) (before : List Section) : Prop :=
  ∃ earlier waker after, before = earlier ++ .pollData id waker :: after ∧
    Finished id (reached fuel earlier c).routed ∧
    answered fuel c earlier (.pollData id waker) = .ok (.data (.ready (.ok none)))

/-- A poll of the stream found its FIN and nothing in front of it. -/
def FoundEnd (fuel : ℕ) (c : Core β ν) (id : StreamId) (before : List Section) : Prop :=
  ∃ earlier waker after, before = earlier ++ .pollData id waker :: after ∧
    Finished id (reached fuel earlier c).routed ∧
    (reached fuel earlier c).terminal = none ∧ queued (reached fuel earlier c) id = []

/-- What arrived is returned before the ending: a reader that is told the ending has read every
byte and the FIN, and an acceptor every stream that was queued. -/
def Delivers (fuel : ℕ) (c : Core β ν) (before : List Section) : Section → Prop
  | .pollData id waker =>
    EndedBelow fuel c (before ++ [.pollData id waker]) → ¬ GivenUp id before →
      (∃ t, answered fuel c before (.pollData id waker) = .ok (.data (.ready (.error (.connection t))))) →
      readsOf fuel id before c = dataOf id (reached fuel before c).routed ∧
        (Finished id (reached fuel before c).routed → ReturnedEnd fuel c id before)
  | .accept kind waker =>
    EndedBelow fuel c before → (∃ t, answered fuel c before (.accept kind waker) = .ok (.stream (.error t))) →
      (reached fuel before c).pending kind = []
  | _ => True

/-- The reader has caught up with what arrived when it polls behind the ending, both windows can be
extended by what it reads before, and behind the ending no stream waits to be accepted. -/
def CaughtUp (fuel : ℕ) (c : Core β ν) (before : List Section) : Section → Prop
  | .pollData id _ => ¬ GivenUp id before →
    (EndedBelow fuel c before → queued (reached fuel before c) id = [] ∧
      (Finished id (reached fuel before c).routed → FoundEnd fuel c id before)) ∧
    ((reached fuel before c).terminal = none → ∀ item rest, queued (reached fuel before c) id = item :: rest →
      Extends (reached fuel before c).lower id item.data.length)
  | .accept kind _ => EndedBelow fuel c before → (reached fuel before c).pending kind = []
  | _ => True

/-! ## One section -/

/-- What a run relies on: events are routed by polls of the driver, and the native library opens
each stream once. -/
structure Sound (fuel : ℕ) (c : Core β ν) (secs : List Section) : Prop where
  unrouted : ∀ sec ∈ secs, routes sec = false
  opens : OpensNew (reached fuel secs c)

theorem reached_grows (fuel : ℕ) (before more : List Section) (c : Core β ν) :
    Grows (reached fuel before c) (reached fuel (before ++ more) c) := by
  rw [reached_append]
  exact run_grows fuel more _

theorem reached_concat (fuel : ℕ) (before : List Section) (sec : Section) (c : Core β ν) :
    reached fuel (before ++ [sec]) c = (sec.step fuel (reached fuel before c)).2 := by
  rw [reached_append]
  rfl

variable {fuel : ℕ} {before : List Section}

theorem Sound.left {more : List Section} (h : Sound fuel c (before ++ more)) :
    Sound fuel c before := by
  constructor
  · intro sec hsec
    exact h.unrouted sec (List.mem_append_left _ hsec)
  · exact h.opens.past (reached_grows fuel before more c)

theorem own_reached (fuel : ℕ) (secs : List Section) (h : Own c) : Own (reached fuel secs c) :=
  run_keeps (H := fun _ => True) (I := Own) (fun _ _ _ _ => trivial) (fun _ _ _ h _ hc => own_step h hc)
    fuel secs c h trivial

theorem section_halves (id : StreamId) (fuel : ℕ) (sec : Section) (other : reads id sec = false) (routed : routes sec = false)
    (own : Own c) (fresh : OpensNew (sec.step fuel c).2) : ReflTransGen (HalfStep id) c (sec.step fuel c).2 := by
  by_cases hopens : opens sec = true
  · cases sec with
    | openStream opener kind waker =>
      have hstart : ReflTransGen (HalfStep id) c { c with effects := {} } := quiet_of_streams rfl rfl rfl (.refl c)
      refine hstart.trans ?_
      rw [Section.step, outcome, Section.program] at fresh ⊢
      rcases Ensures.cases (openStream_halves id (c := { c with effects := {} }) own opener kind waker) with
        ⟨r, d, hrun, hgoes⟩ | ⟨e, d, hrun, hgoes⟩
      · have hmap : (SectionResult.stream <$> openStream opener kind waker : CoreM β ν SectionResult)
            { c with effects := {} } = .ok (.stream r) d := bind_ok hrun
        rw [hmap] at fresh ⊢
        exact hgoes fresh
      · have hmap : (SectionResult.stream <$> openStream opener kind waker : CoreM β ν SectionResult)
            { c with effects := {} } = .error e d := bind_error hrun
        rw [hmap] at fresh ⊢
        exact hgoes fresh
    | _ => cases hopens
  · exact step_halves fuel sec c other routed (Bool.eq_false_iff.mpr hopens)

variable {t : ConnectionTerminal}

omit [Dwnx ν] [AsyncByteStream β] in
theorem ending_kept {d : Core β ν} (h : ReflTransGen (HalfStep id) c d)
    (ended : c.terminal = some t) : d.terminal = some t ∧ d.closeIsFailure = c.closeIsFailure := by
  have hends {c d : Core β ν} (ends : EndsOnce c d) (ended : c.terminal = some t) :
      d.terminal = some t ∧ d.closeIsFailure = c.closeIsFailure := by
    rcases ends with ⟨hterminal, hfailure⟩ | ⟨hnone, -⟩
    · exact ⟨hterminal.trans ended, hfailure⟩
    · rw [ended] at hnone
      cases hnone
  induction h with
  | refl => exact ⟨ended, rfl⟩
  | tail _ hstep ih =>
    obtain ⟨hterminal, hfailure⟩ := ih
    rw [← hfailure]
    cases hstep with
    | quiet _ _ ends _ => exact hends ends hterminal
    | accepted _ _ ends _ _ => exact hends ends hterminal
    | opened _ _ _ ends _ _ _ => exact hends ends hterminal
    | retired _ _ ends _ _ _ _ => exact hends ends hterminal
    | heard _ live _ _ _ =>
      rw [hterminal] at live
      cases live

theorem exists_other (sec : Section) : ∃ id, reads id sec = false := by
  by_cases h : reads ⟨0, by decide⟩ sec = true
  · use ⟨1, by decide⟩
    cases sec <;> simp_all [reads]
  · exact ⟨_, Bool.eq_false_iff.mpr h⟩

theorem ending_section (fuel : ℕ) (sec : Section) (routed : routes sec = false)
    (own : Own c) (fresh : OpensNew (sec.step fuel c).2) (ended : c.terminal = some t) :
    (sec.step fuel c).2.terminal = some t ∧ (sec.step fuel c).2.closeIsFailure = c.closeIsFailure := by
  obtain ⟨id, hother⟩ := exists_other sec
  exact ending_kept (section_halves id fuel sec hother routed own fresh) ended

theorem ending_run (fuel : ℕ) (before : List Section) (own : Own c)
    (ended : c.terminal = some t) (sound : Sound fuel c before) :
    (reached fuel before c).terminal = some t ∧ (reached fuel before c).closeIsFailure = c.closeIsFailure := by
  induction before using List.reverseRecOn with
  | nil => exact ⟨ended, rfl⟩
  | append_singleton before sec ih =>
    obtain ⟨hterminal, hfailure⟩ := ih sound.left
    rw [← hfailure, reached_concat]
    refine ending_section fuel sec (sound.unrouted sec (by simp)) (own_reached fuel before own) ?_ hterminal
    rw [← reached_concat]
    exact sound.opens

theorem EndedBelow.terminal (h : EndedBelow fuel c before) (own : Own c)
    (sound : Sound fuel c before) : (∃ error, (reached fuel before c).terminal = some (.fromLower error)) ∧
      ¬ Refused (reached fuel before c) := by
  obtain ⟨past, ⟨more, rfl⟩, ⟨error, hterminal⟩, -, hfailure⟩ := h
  have hmore : Sound fuel (reached fuel past c) more := by
    constructor
    · intro sec hsec
      exact sound.unrouted sec (List.mem_append_right _ hsec)
    · rw [← reached_append]
      exact sound.opens
  obtain ⟨hlast, hfailure'⟩ := ending_run fuel more (own_reached fuel past own) hterminal hmore
  rw [reached_append]
  refine ⟨⟨error, hlast⟩, ?_⟩
  rintro ⟨t, ht, hwhy⟩
  rw [hlast] at ht
  cases ht
  rcases hwhy with hwhy | ⟨message, hmessage⟩
  · rw [hfailure', hfailure] at hwhy
    cases hwhy
  · rw [ConnectionTerminal.fromLower] at hmessage
    split at hmessage
    · split at hmessage <;> cases hmessage
    · cases hmessage

theorem not_endedBelow (own : Own c) (sound : Sound fuel c before)
    (live : (reached fuel before c).terminal = none) : ¬ EndedBelow fuel c before := by
  intro hended
  obtain ⟨⟨error, hterminal⟩, -⟩ := hended.terminal own sound
  rw [live] at hterminal
  cases hterminal

/-! ## Books of a run -/

theorem not_givenUp_left {more : List Section} (h : ¬ GivenUp id (before ++ more)) : ¬ GivenUp id before := by
  rintro ⟨sec, hsec, hgives⟩
  exact h ⟨sec, List.mem_append_left _ hsec, hgives⟩

theorem kept_run (fuel : ℕ) (before : List Section) (own : Own c) (fresh : Books id [] c)
    (sound : Sound fuel c before) (caughtUp : AtEach (CaughtUp fuel c) before) (held : ¬ GivenUp id before) :
    Kept id (readsOf fuel id before c) (reached fuel before c) := by
  induction before using List.reverseRecOn with
  | nil => exact .inr fresh
  | append_singleton before sec ih =>
    obtain ⟨hbefore, hlast⟩ := atEach_concat.mp caughtUp
    have hkept := ih sound.left hbefore (not_givenUp_left held)
    rw [readsOf_concat, reached_concat]
    by_cases hreads : reads id sec = true
    · cases sec with
      | pollData id' waker =>
        obtain rfl : id' = id := by simpa [reads] using hreads
        obtain ⟨poll, hanswer, hpolled⟩ := pollData_step fuel id' waker (reached fuel before c)
        have hread : readBy id' (.pollData id' waker) (answered fuel c before (.pollData id' waker)) =
            returned poll := by
          rw [answered, hanswer]
          exact if_pos rfl
        rw [hread]
        exact hkept.polled hpolled (hlast (not_givenUp_left held)).2
      | stopSending id' code =>
        have hgives : id' = id := by simpa [reads] using hreads
        exact absurd ⟨.stopSending id' code, by simp, hgives⟩ held
      | dropRecv id' =>
        have hgives : id' = id := by simpa [reads] using hreads
        exact absurd ⟨.dropRecv id', by simp, hgives⟩ held
      | _ => cases hreads
    · have hother : reads id sec = false := Bool.eq_false_iff.mpr hreads
      have hnone : readBy id sec (answered fuel c before sec) = none := by
        cases sec with
        | pollData id' waker =>
          obtain ⟨poll, hanswer, -⟩ := pollData_step fuel id' waker (reached fuel before c)
          rw [answered, hanswer]
          exact if_neg (by simpa [reads] using hother)
        | _ => rfl
      rw [hnone, Option.toList_none, List.append_nil]
      refine hkept.steps (section_halves id fuel sec hother (sound.unrouted sec (by simp)) (own_reached fuel before own) ?_)
      rw [← reached_concat]
      exact sound.opens

omit [Dwnx ν] [AsyncByteStream β] in
theorem books_new (lower : Connection β ν) (limit : ℕ) (id : StreamId) : Books id [] (Core.new lower limit) := by
  have hnone : half (Core.new lower limit) id = none := by
    show (∅ : StreamMap)[id]?.map receiveHalf = none
    rw [Std.TreeMap.getElem?_emptyc]
    rfl
  have hqueued : queued (Core.new lower limit) id = [] := by rw [queued, hnone]; rfl
  have hending : ending (Core.new lower limit) id = none := by rw [ending, hnone]; rfl
  constructor
  · rw [hnone]
    nofun
  · rw [hnone]
    nofun
  · nofun
  · rw [hqueued]
    rfl
  · intro _
    exact .inl hending
  · rintro ⟨before, offset, data, after, hsplit, -⟩
    have hnil : ([] : List Event) = before ++ .streamData id offset data true :: after := hsplit
    simp at hnil

theorem returnedEnd_iff (own : Own c) (fresh : Books id [] c)
    (sound : Sound fuel c before) (caughtUp : AtEach (CaughtUp fuel c) before) (held : ¬ GivenUp id before) :
    ReturnedEnd fuel c id before ↔ FoundEnd fuel c id before := by
  constructor
  · rintro ⟨earlier, waker, after, rfl, hfin, hanswer⟩
    obtain ⟨poll, hpoll, hpolled⟩ := pollData_step fuel id waker (reached fuel earlier c)
    rw [answered, hpoll] at hanswer
    cases hanswer
    refine ⟨earlier, waker, after, rfl, hfin, ?_⟩
    generalize hpoll : Poll.ready (Except.ok (none : Option Bytes)) = poll at hpolled
    cases hpolled with
    | drained live drained _ => exact ⟨live, drained⟩
    | _ => cases hpoll
  · rintro ⟨earlier, waker, after, rfl, hfin, hlive, hdrained⟩
    refine ⟨earlier, waker, after, rfl, hfin, ?_⟩
    have hkept := kept_run fuel earlier own fresh sound.left caughtUp.left (not_givenUp_left held)
    have hended : ending (reached fuel earlier c) id = some .finished := by
      rcases hkept with ⟨t, ht, -⟩ | hbooks
      · rw [hlive] at ht
        cases ht
      · rcases hbooks.fins hfin with ⟨item, hitem, -⟩ | hended
        · rw [hdrained] at hitem
          cases hitem
        · exact hended
    obtain ⟨poll, hpoll, hpolled⟩ := pollData_step fuel id waker (reached fuel earlier c)
    rw [answered, hpoll]
    cases hpolled with
    | ended ended _ _ =>
      rw [hlive] at ended
      cases ended
    | @read item rest h _ _ here first _ _ _ _ =>
      rw [queued, here] at hdrained
      have hnone : h.queue = [] := hdrained
      rw [hnone] at first
      cases first
    | refused _ first _ _ _ _ =>
      rw [hdrained] at first
      cases first
    | drained _ _ _ =>
      rw [hended]
      rfl

theorem accept_ended (fuel : ℕ) {kind : AcceptKind} {waker : Waker}
    (ended : c.terminal = some t) : ((Section.accept kind waker).step fuel c).1 = .ok (.stream (.error t)) := by
  have hrun : (accept kind waker : CoreM β ν _) { c with effects := {} } = .ok (.error t) { c with effects := {} } := by
    rw [accept, bind_ok get_apply]
    simp only [ended]
    rfl
  have hmap : (SectionResult.stream <$> accept kind waker : CoreM β ν SectionResult) { c with effects := {} } =
      .ok (.stream (.error t)) { c with effects := {} } := bind_ok hrun
  rw [Section.step, outcome, Section.program, hmap]

theorem delivers_iff {sec : Section} (own : Own c) (fresh : ∀ id, Books id [] c)
    (honest : Honest c) (sound : Sound fuel c (before ++ [sec])) (caughtUp : AtEach (CaughtUp fuel c) before) :
    Delivers fuel c before sec ↔ CaughtUp fuel c before sec := by
  have hmore (h : EndedBelow fuel c before) : EndedBelow fuel c (before ++ [sec]) := by
    obtain ⟨past, hpast, hended⟩ := h
    exact ⟨past, hpast.trans (List.prefix_append _ _), hended⟩
  cases sec with
  | accept kind waker =>
    constructor
    · intro hdelivers hended
      obtain ⟨⟨error, hterminal⟩, -⟩ := hended.terminal own sound.left
      exact hdelivers hended ⟨_, accept_ended fuel hterminal⟩
    · intro hcaught hended _
      exact hcaught hended
  | pollData id waker =>
    by_cases hgiven : GivenUp id before
    · constructor
      · intro _ hnot
        exact absurd hgiven hnot
      · intro _ _ hnot
        exact absurd hgiven hnot
    have hkept := kept_run fuel before own (fresh id) sound.left caughtUp hgiven
    have hends := returnedEnd_iff own (fresh id) sound.left caughtUp hgiven
    obtain ⟨poll, hpoll, hpolled⟩ := pollData_step fuel id waker (reached fuel before c)
    rw [← reached_concat] at hpolled
    have hanswer : answered fuel c before (.pollData id waker) = .ok (.data poll) := hpoll
    -- while the connection lives nothing below has ended it
    have hrunning (hlive : (reached fuel before c).terminal = none) : ¬ EndedBelow fuel c before :=
      not_endedBelow own sound.left hlive
    rw [Delivers, CaughtUp, hanswer]
    cases hpolled with
    | @ended t d ended close goes =>
      have hbehind (h : EndedBelow fuel c (before ++ [.pollData id waker])) : EndedBelow fuel c before := by
        obtain ⟨past, hpast, hended⟩ := h
        rcases List.prefix_concat_iff.mp hpast with rfl | hpast
        · obtain ⟨hterminal, hfailure⟩ := ending_kept goes ended
          obtain ⟨⟨error, herror⟩, hclose, hfails⟩ := hended
          refine ⟨before, List.prefix_rfl, ⟨error, ?_⟩, close.symm.trans hclose, hfailure.symm.trans hfails⟩
          rw [ended, ← hterminal]
          exact herror
        · exact ⟨past, hpast, hended⟩
      have hbooks (h : EndedBelow fuel c before) : Books id (readsOf fuel id before c) (reached fuel before c) :=
        hkept.resolve_left (h.terminal own sound.left).2
      constructor
      · intro hdelivers _
        constructor
        · intro hended
          obtain ⟨hread, hfin⟩ := hdelivers (hmore hended) hgiven ⟨t, rfl⟩
          refine ⟨?_, fun h => hends.mp (hfin h)⟩
          have horder := (hbooks hended).inOrder
          rw [← hread] at horder
          simpa using horder
        · intro hlive
          rw [ended] at hlive
          cases hlive
      · intro hcaught hended _ _
        obtain ⟨hdrained, hfin⟩ := (hcaught hgiven).1 (hbehind hended)
        refine ⟨?_, fun h => hends.mpr (hfin h)⟩
        have horder := (hbooks (hbehind hended)).inOrder
        rw [hdrained] at horder
        simpa using horder.symm
    | @read item rest h d live here first extended _ _ _ =>
      constructor
      · intro _ _
        refine ⟨fun hended => absurd hended (hrunning live), ?_⟩
        intro _ item' rest' hqueued
        rw [queued, here] at hqueued
        obtain ⟨rfl, -⟩ := List.cons.inj (first.symm.trans hqueued)
        exact extended
      · rintro - - - ⟨t, ht⟩
        cases ht
    | @refused item rest error d live first refused terminal close failure =>
      have hrunning := honest_run fuel before c honest live
      have hended : EndedBelow fuel c (before ++ [.pollData id waker]) :=
        ⟨_, List.prefix_rfl, ⟨error, terminal⟩, close.trans hrunning.close, failure.trans hrunning.failure⟩
      constructor
      · intro hdelivers
        obtain ⟨hread, -⟩ := hdelivers hended hgiven ⟨_, rfl⟩
        rcases hkept with ⟨t, ht, -⟩ | hbooks
        · rw [live] at ht
          cases ht
        · have horder := hbooks.inOrder
          rw [first, ← hread] at horder
          simp at horder
      · intro hcaught
        exact absurd ((hcaught hgiven).2 live item rest first) refused
    | @drained d live drained goes =>
      constructor
      · intro _ _
        refine ⟨fun hended => absurd hended (hrunning live), ?_⟩
        intro _ item' rest' hqueued
        rw [drained] at hqueued
        cases hqueued
      · rintro - - - ⟨t, ht⟩
        cases hending : ending (reached fuel before c) id with
        | none =>
          rw [hending] at ht
          cases ht
        | some ended =>
          rw [hending] at ht
          cases ended <;> cases ht
  | _ => exact Iff.rfl

end Runs

/-! ## A response behind which the peer closes -/

def request : StreamId := ⟨0, zero_le_maxVarint⟩

/-- The peer sends a request in one record and closes its side of the byte stream. -/
def closing : Connection ScriptedStream ScriptedDwnx :=
  .new { reads := [.ready (.ok [1, 0]), .ready (.ok [])] }
    { reads := [⟨.ok .processed, [.streamOpened request, .streamData request 0 [7, 8] true]⟩] } .server 100

/-- What the layer below ends with. -/
def endOfStream : Error := ⟨.endOfStream, "the byte stream ended between records", none⟩

/-- The reader polls before the driver learns of the ending, and again behind it. -/
def promptReader : List Section :=
  [.driver, .accept .bidi 5, .pollData request 5, .pollData request 5, .driver, .pollData request 5, .accept .bidi 5]

/-- The reader polls only behind the ending. -/
def lateReader : List Section := [.driver, .accept .bidi 5, .driver, .pollData request 5]

end Ngnet.HyperiumDeliveries
