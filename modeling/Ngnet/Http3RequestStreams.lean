import Ngnet.Http3Lifetimes
import Ngnet.Http3Settlement

/-!
# The request streams of an HTTP/3 client

A stream that the backend opened for a client is spare until it is taken for a command, and the
command in hand is the only one it is taken for. Behind its submission it carries that request, and
no other.

A stream is taken before the head of the request is looked at and before nghttp3 has agreed. Where
either refuses the command, the stream is not put back: nothing is sent on it and nobody resets it.
-/

namespace Ngnet.Http3RequestStreams
open QmuxVarints QmuxStreams Http3Heads Http3Handles Http3Conn Http3Driver Http3Passes InterleavedPrograms
open Http3DriverSteps Http3HandleSteps Http3Discipline Http3Tracking Http3Placement Http3Lifetimes
open Http3Settlement

variable {β ν η α : Type}

/-- The request of an exchange was submitted on this stream. -/
def Carries (c : Common) (id : ℕ) (stream : StreamId) : Prop := (c.exchanges id).slot.stream = some stream

/-- A stream was taken for the command in hand. -/
def TakenForHand (d : DriverState β ν η) (stream : StreamId) : Prop :=
  ∃ hand, d.hand = some hand ∧ hand.admitted = true ∧ hand.stream = stream

structure Carried (w : World β ν η) : Prop where
  taken : ∀ id stream, Carries w.common id stream → stream ∈ w.driver.used
  once : ∀ id id' stream, Carries w.common id stream → Carries w.common id' stream → id = id'
  hand : ∀ id stream, TakenForHand w.driver stream → ¬Carries w.common id stream
  kept : ∀ stream ∈ w.driver.used, TakenForHand w.driver stream ∨ ∃ id, Carries w.common id stream

section Steps
variable {w w' : World β ν η}

theorem Carried.of_same (h : Carried w) (hcarries : ∀ id stream, Carries w'.common id stream ↔ Carries w.common id stream)
    (hhand : w'.driver.hand = w.driver.hand) (hused : w'.driver.used = w.driver.used) : Carried w' := by
  constructor
  case taken =>
    intro id stream hcarry
    rw [hused]
    exact h.taken id stream ((hcarries id stream).mp hcarry)
  case once =>
    intro id id' stream hcarry hcarry'
    exact h.once id id' stream ((hcarries id stream).mp hcarry) ((hcarries id' stream).mp hcarry')
  case hand =>
    intro id stream htaken hcarry
    rw [TakenForHand, hhand] at htaken
    exact h.hand id stream htaken ((hcarries id stream).mp hcarry)
  case kept =>
    intro stream hmem
    rw [hused] at hmem
    rw [TakenForHand, hhand]
    exact (h.kept stream hmem).imp_right fun ⟨id, hcarry⟩ => ⟨id, (hcarries id stream).mpr hcarry⟩

theorem slot_stream_of_step {id : ℕ} {e e' : Exchange} {action : Common.Action} {given : Option (StreamId × ℕ)}
    (h : ExchangeStep id e action e' given) : e'.slot.stream = e.slot.stream := by
  cases h with
  | refused => exact stream_fail _ _
  | dropFailed => exact stream_fail _ _
  | _ => rfl

theorem carries_act (hliving : Living w) (action : Common.Action) (id : ℕ) :
    ((w.common.act action).exchanges id).slot.stream = (w.common.exchanges id).slot.stream := by
  have hacts := acts_act w.common action
  generalize w.common.act action = c' at hacts ⊢
  cases hacts with
  | idle hframe hexchanges => rw [hexchanges]
  | @sent request =>
    by_cases hid : id = w.common.created
    · have hblank := hliving.blank _ (.inl le_rfl)
      rw [hid, hblank.stream]
      simp
    · simp only [Function.update_of_ne hid]
  | @pushed id' request hfuture hrequest hunlocked =>
    simp only [Common.setFuture]
    by_cases hid : id = id'
    · rw [hid, exchanges_modify_self]
      rfl
    · rw [exchanges_modify_of_ne _ _ hid]
      rfl
  | @moved _ id' e' given _ hstep hframe hexchanges =>
    rw [hexchanges]
    by_cases hid : id = id'
    · rw [hid, Function.update_self]
      exact slot_stream_of_step hstep
    · rw [Function.update_of_ne hid]

variable [QuicConnection β] [Nghttp3 ν] [Handlers η] {strict : Prop} {role : Role} {k : Desk}

/-- No command is refused behind the taking of a stream for it. -/
def notRefused : Op β ν α → Bool
  | .refuse _ => false
  | _ => true

theorem carried_applyOp (h : Carried w) (hliving : Living w) (hplaced : Placed role w.driver) {op : Op β ν α}
    (htracks : Tracks strict w k) (hallows : k.allows strict role op) (haccepted : notRefused op = true) :
    Carried (applyOp w op).2 := by
  by_cases hstreams : handles op = false ∧ registers op = false
  · have hsame := sameHand_applyOp w hstreams.1
    refine h.of_same (fun id stream => ?_) hsame.hand hsame.used
    rw [Carries, Carries, (touched_applyOp w hstreams.2 id).stream]
  cases op with
  | giveStream stream => exact h.of_same (fun _ _ => Iff.rfl) rfl rfl
  | pop =>
    have hempty : handState w.driver.hand = .empty := htracks.hand.trans hallows.1
    rw [applyOp]
    split
    · rename_i stream rest command queue hspare hqueue
      refine ⟨h.taken, h.once, ?_, fun stream hmem => .inr ?_⟩
      · rintro id stream ⟨hand, hhand, hadmitted, -⟩
        cases hhand
        cases hadmitted
      · refine (h.kept stream hmem).resolve_left ?_
        rintro ⟨hand, hhand, hadmitted, -⟩
        simp [handState, hhand, hadmitted] at hempty
    · exact h
  | admitRequest =>
    obtain ⟨command, stream, hhand⟩ := hand_popped (htracks.hand.trans hallows)
    have hspare : w.driver.spare.head? = some stream := hplaced.hand _ hhand
    obtain ⟨rest, hspare⟩ := List.head?_eq_some_iff.mp hspare
    have hnotTaken : ∀ other, ¬TakenForHand w.driver other := by
      rintro other ⟨hand, hsome, hadmitted, -⟩
      rw [hhand] at hsome
      cases hsome
      cases hadmitted
    have hkept : ∀ other ∈ w.driver.used, ∃ id, Carries w.common id other :=
      fun other hmem => (h.kept other hmem).resolve_left (hnotTaken other)
    have hnew : stream ∉ w.driver.used := by
      intro hmem
      have hnodup := hplaced.nodup
      rw [hplaced.opened, hspare, List.nodup_append] at hnodup
      exact hnodup.2.2 _ hmem _ List.mem_cons_self rfl
    simp only [applyOp, hhand]
    split
    · refine ⟨h.taken, h.once, ?_, fun other hmem => .inr (hkept other hmem)⟩
      rintro id other ⟨hand, hnone, -⟩
      cases hnone
    · constructor
      case taken => exact fun id other hcarry => List.mem_append_left _ (h.taken id other hcarry)
      case once => exact h.once
      case hand =>
        rintro id other ⟨hand, hsome, -, rfl⟩ hcarry
        cases hsome
        exact hnew (h.taken id stream hcarry)
      case kept =>
        intro other hmem
        obtain hmem | hlast := List.mem_append.mp hmem
        · exact .inr (hkept other hmem)
        · exact .inl ⟨_, rfl, rfl, (List.mem_singleton.mp hlast).symm⟩
  | refuse error => cases haccepted
  | enterHand ending =>
    obtain ⟨command, stream, hhand⟩ := hand_admitted (htracks.hand.trans hallows)
    have htaken : TakenForHand w.driver stream := ⟨_, hhand, rfl, rfl⟩
    have hblank := hliving.blank command.exchange (.inr (.inr (.inr ⟨_, hhand, rfl⟩)))
    have hplaced : stream ∈ w.driver.used ∧ w.driver.registry[stream.val]? = none := hplaced.hand _ hhand
    simp only [applyOp, World.enterHand, hhand]
    have hself : ((w.common.modifySlot command.exchange (·.bind stream)).exchanges command.exchange).slot.stream =
        some stream := by
      rw [Common.modifySlot, exchanges_modify_self]
      rfl
    have hother : ∀ j, j ≠ command.exchange →
        (w.common.modifySlot command.exchange (·.bind stream)).exchanges j = w.common.exchanges j :=
      fun j hj => exchanges_modify_of_ne _ _ hj
    have hcarries : ∀ id other, Carries (w.common.modifySlot command.exchange (·.bind stream)) id other →
        id = command.exchange ∧ other = stream ∨ id ≠ command.exchange ∧ Carries w.common id other := by
      intro id other hcarry
      by_cases hid : id = command.exchange
      · rw [Carries, hid, hself] at hcarry
        exact .inl ⟨hid, (Option.some.inj hcarry).symm⟩
      · rw [Carries, hother id hid] at hcarry
        exact .inr ⟨hid, hcarry⟩
    constructor
    case taken =>
      intro id other hcarry
      obtain ⟨-, rfl⟩ | ⟨-, hbefore⟩ := hcarries id other hcarry
      · exact hplaced.1
      · exact h.taken id other hbefore
    case once =>
      intro id id' other hcarry hcarry'
      obtain ⟨rfl, rfl⟩ | ⟨-, hbefore⟩ := hcarries id other hcarry
      · obtain ⟨rfl, -⟩ | ⟨-, hbefore'⟩ := hcarries id' other hcarry'
        · rfl
        · exact (h.hand id' _ htaken hbefore').elim
      · obtain ⟨-, rfl⟩ | ⟨-, hbefore'⟩ := hcarries id' other hcarry'
        · exact (h.hand id _ htaken hbefore).elim
        · exact h.once id id' other hbefore hbefore'
    case hand =>
      rintro id other ⟨hand, hnone, -⟩
      cases hnone
    case kept =>
      intro other hmem
      obtain ⟨hand, hsome, -, rfl⟩ | ⟨id, hcarry⟩ := h.kept other hmem
      · rw [hhand] at hsome
        cases hsome
        exact .inr ⟨command.exchange, hself⟩
      · refine .inr ⟨id, ?_⟩
        have hne : id ≠ command.exchange := by
          rintro rfl
          rw [Carries, hblank.stream] at hcarry
          cases hcarry
        rw [Carries, hother id hne]
        exact hcarry
  | openExchange stream head =>
    have hblank := hliving.blank w.common.created (.inl le_rfl)
    refine h.of_same (fun id other => ?_) rfl rfl
    by_cases hid : id = w.common.created
    · rw [Carries, Carries, hid, hblank.stream]
      simp [applyOp, World.openExchange]
    · have hother : ((applyOp w (.openExchange stream head)).2.common.exchanges id) = w.common.exchanges id :=
        Function.update_of_ne hid _ _
      rw [Carries, Carries, hother]
  | _ => exact (hstreams ⟨rfl, rfl⟩).elim

end Steps

/-! ## Runs -/

section Runs
variable [QuicConnection β] [Nghttp3 ν] [Handlers η] [Http] {role : Role} {config : Http3Passes.Config} {fuel : ℕ}
  {backend : β} {raw : ν} {handlers : η} {choices : List (Choice Common.Action)}

/-- Every stream that was opened is spare or carries the request of an exchange, and of one only. -/
def NoneLeaked (w : World β ν η) : Prop :=
  (∀ stream ∈ w.driver.openedBi, stream ∈ w.driver.spare ∨ ∃ id, Carries w.common id stream) ∧
    ∀ id id' stream, Carries w.common id stream → Carries w.common id' stream → id = id'

/-- If no command is refused for which a stream was taken, none is leaked whenever the driver has no
command in hand, as is so behind each `advance`. -/
theorem noneLeaked_reached (h : (connection role config fuel).Careful (newWorld role backend raw handlers)
      (fun op w => fresh w op = true ∧ notRefused op = true) (fun _ _ => True) choices)
    (hhand : ((connection role config fuel).reached (newWorld role backend raw handlers) choices).state.driver.hand =
      none) :
    NoneLeaked ((connection role config fuel).reached (newWorld role backend raw handlers) choices).state := by
  have hcareful := careful_living False (fun _ _ _ hstrict => hstrict.elim) (fun _ _ hop => hop.1) h
  have hplaced := state_invariant (I := fun w : World β ν η => Placed role w.driver) placed_newWorld ?_
    (fun _ _ hplaced _ => hplaced) hcareful
  have hcarried := state_invariant (I := fun w : World β ν η => Carried w) ?_ ?_ ?_ hcareful
  · refine ⟨fun stream hopened => ?_, hcarried.once⟩
    rw [hplaced.opened, List.mem_append] at hopened
    obtain hused | hspare := hopened
    · refine .inr ((hcarried.kept stream hused).resolve_left ?_)
      rintro ⟨hand, hsome, -⟩
      rw [hhand] at hsome
      cases hsome
    · exact .inl hspare
  · exact ⟨nofun, nofun, nofun, nofun⟩
  · intro α op w hcarried ⟨⟨⟨⟨_, haccepted⟩, k, htracks, hallows⟩, hplaced⟩, hliving⟩
    exact carried_applyOp hcarried hliving hplaced htracks hallows haccepted
  · intro action w hcarried ⟨_, hliving⟩
    refine hcarried.of_same (fun id stream => ?_) rfl rfl
    exact iff_of_eq (congrArg (· = some stream) (carries_act hliving action id))
  · intro α op w hplaced ⟨⟨⟨⟨hfresh, _⟩, k, htracks, hallows⟩, _⟩, _⟩
    exact placed_applyOp hplaced hfresh htracks hallows

/-- A request is queued once, or in hand, or registered: under its own stream, and under no other. -/
theorem requests_apart (h : (connection role config fuel).Careful (newWorld role backend raw handlers)
      (fun op w => fresh w op = true) (fun _ _ => True) choices) :
    let w := ((connection role config fuel).reached (newWorld role backend raw handlers) choices).state
    (w.common.queue.map (·.exchange)).Nodup ∧ (∀ id, InHand w.driver id → ¬Queued w.common id) ∧
      (∀ id, Queued w.common id ∨ InHand w.driver id → ¬Registered w.driver id) ∧
      ∀ (key : ℕ) entry, w.driver.registry[key]? = some entry →
        (streamOf (w.common.exchanges entry.incoming)).map (·.val) = some key ∧
        (∀ id, entry.slot = some id → id = entry.incoming) ∧
        ∀ (other : ℕ) entry', w.driver.registry[other]? = some entry' → entry'.incoming = entry.incoming →
          other = key := by
  intro w
  have hliving : Living w := living_reached False (fun _ _ _ hstrict => hstrict.elim) (fun _ _ hop => hop) h
  refine ⟨hliving.queue, hliving.hand, fun id hearly => hliving.unregistered id (.inr (.inr hearly)), ?_⟩
  intro key entry hentry
  refine ⟨hliving.home key entry hentry, fun id hslot => (hliving.slot key entry id hentry hslot).symm, ?_⟩
  exact fun other entry' hentry' hsame => hliving.once other key entry' entry hentry' hentry hsame

end Runs

/-! ## Two requests -/

attribute [local instance] accepting

/-- A request whose head `request_fields` rejects. -/
def connectRequest : Request := { getRequest with parts := ⟨connect, ⟨none, some (ascii "a"), none⟩, []⟩ }

/-- A request, and `n` steps of the driver. -/
def submitting (request : Request) (n : ℕ) : List (Choice Common.Action) :=
  [.other (.sendRequest request)] ++ List.replicate 4 (.other (.stepFuture 0)) ++ List.replicate n .own

theorem noneLeaked_reached_submitted :
    NoneLeaked (scriptedClient.reached (startOf [] []) (submitting getRequest 60)).state :=
  noneLeaked_reached (careful_of_carefulFrom (by decide +kernel)) (by decide +kernel)

theorem requests_apart_submitted :
    ((scriptedClient.reached (startOf [] []) (submitting getRequest 60)).state.common.queue.map (·.exchange)).Nodup :=
  (requests_apart (careful_of_carefulFrom (by decide +kernel))).1

/-- The stream that was taken for a request with a bad head is neither spare nor used, and nothing resets
it. -/
theorem request_stream_leaked :
    scriptedClient.Careful (startOf [] []) (fun op w => fresh w op = true) (fun _ _ => True)
        (submitting connectRequest 60) ∧
      (scriptedClient.reached (startOf [] []) (submitting connectRequest 60)).stage.hasFailed = false ∧
      (scriptedClient.reached (startOf [] []) (submitting connectRequest 60)).state.driver.hand.isNone = true ∧
      (scriptedClient.reached (startOf [] []) (submitting connectRequest 60)).state.common.inner.resets = [] ∧
      (scriptedClient.reached (startOf [] []) (submitting connectRequest 60)).state.driver.work.resets = [] ∧
      ¬ NoneLeaked (scriptedClient.reached (startOf [] []) (submitting connectRequest 60)).state := by
  have hcareful : scriptedClient.Careful (startOf [] []) (fun op w => fresh w op = true) (fun _ _ => True)
      (submitting connectRequest 60) := careful_of_carefulFrom (by decide +kernel)
  refine ⟨hcareful, by decide +kernel, by decide +kernel, by decide +kernel, by decide +kernel, fun h => ?_⟩
  obtain hspare | ⟨id, hcarry⟩ := h.1 (requestStream 0) (by decide +kernel)
  · have hnone : (scriptedClient.reached (startOf [] []) (submitting connectRequest 60)).state.driver.spare = [] := by
      decide +kernel
    rw [hnone] at hspare
    cases hspare
  · have hcreated : (scriptedClient.reached (startOf [] []) (submitting connectRequest 60)).state.common.created = 1 := by
      decide +kernel
    have hunbound : ((scriptedClient.reached (startOf [] []) (submitting connectRequest 60)).state.common.exchanges
        0).slot.stream = none := by decide +kernel
    have hliving := living_reached False (fun _ _ _ hstrict => hstrict.elim) (fun _ _ hop => hop) hcareful
    cases id with
    | zero =>
      rw [Carries, hunbound] at hcarry
      cases hcarry
    | succ id =>
      have hblank := hliving.blank (id + 1) (.inl (hcreated.le.trans (Nat.le_add_left 1 id)))
      have hstream : ((scriptedClient.reached (startOf [] []) (submitting connectRequest 60)).state.common.exchanges
          (id + 1)).slot.stream = none := hblank.stream
      rw [Carries, hstream] at hcarry
      cases hcarry

end Ngnet.Http3RequestStreams
