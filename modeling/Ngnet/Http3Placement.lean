import Ngnet.Http3Tracking

/-!
# Which streams the exchanges of a connection are on

A backend opens each stream once, and nghttp3 reports the head of a request once. Then the stream
that is taken for a command is a new one, and registering an exchange never displaces another.
-/

namespace Ngnet.Http3Placement
open QmuxVarints QmuxStreams Http3Heads Http3Handles Http3Conn Http3Driver Http3Passes InterleavedPrograms
open Http3DriverSteps Http3HandleSteps Http3Discipline Http3Tracking

variable {β ν η α : Type}

/-- A stream that is opened was not opened before, and a request is not reported for a stream that is
registered. -/
def fresh (w : World β ν η) : Op β ν α → Bool
  | .giveStream stream => stream ∉ w.driver.openedBi
  | .openExchange stream _ => (w.driver.entry stream).isNone
  | _ => true

/-- The stream of a command in hand: still spare, or taken and not registered yet. -/
def HandPlaced (d : DriverState β ν η) (hand : Hand) : Prop :=
  if hand.admitted then hand.stream ∈ d.used ∧ d.registry[hand.stream.val]? = none
  else d.spare.head? = some hand.stream

structure Placed (role : Role) (d : DriverState β ν η) : Prop where
  opened : d.openedBi = d.used ++ d.spare
  nodup : d.openedBi.Nodup
  client : d.hand.isSome → role = .client
  hand : ∀ hand, d.hand = some hand → HandPlaced d hand
  registered : role = .client → ∀ (key : ℕ) entry, d.registry[key]? = some entry → ∃ stream ∈ d.used, stream.val = key

section Steps
variable {role : Role} {d d' : DriverState β ν η}

theorem Placed.of_eq (h : Placed role d) (hhand : d'.hand = d.hand) (hspare : d'.spare = d.spare)
    (hused : d'.used = d.used) (hopened : d'.openedBi = d.openedBi)
    (hregistry : ∀ (key : ℕ) entry, d'.registry[key]? = some entry → d.registry[key]? = some entry) :
    Placed role d' where
  opened := by rw [hopened, hused, hspare, h.opened]
  nodup := hopened ▸ h.nodup
  client := hhand ▸ h.client
  hand hand hsome := by
    have hplaced := h.hand hand (hhand ▸ hsome)
    rw [HandPlaced] at hplaced ⊢
    split
    · rename_i hadmitted
      rw [if_pos hadmitted] at hplaced
      refine ⟨hused ▸ hplaced.1, ?_⟩
      by_contra hne
      obtain ⟨entry, hentry⟩ := Option.ne_none_iff_exists'.mp hne
      rw [hregistry _ _ hentry] at hplaced
      cases hplaced.2
    · rename_i hpopped
      rw [if_neg hpopped] at hplaced
      rw [hspare, hplaced]
  registered hrole key entry hentry := by
    rw [hused]
    exact h.registered hrole key entry (hregistry key entry hentry)

theorem Placed.of_dropped (h : Placed role d) (hhand : d'.hand = none) (hspare : d'.spare = d.spare)
    (hused : d'.used = d.used) (hopened : d'.openedBi = d.openedBi) (hregistry : d'.registry = d.registry) :
    Placed role d' where
  opened := by rw [hopened, hused, hspare, h.opened]
  nodup := hopened ▸ h.nodup
  client hsome := by simp [hhand] at hsome
  hand hand hsome := by simp [hhand] at hsome
  registered hrole key entry hentry := hused ▸ h.registered hrole key entry (hregistry ▸ hentry)

theorem StreamId.eq_of_val {stream other : StreamId} (h : stream.val = other.val) : stream = other := by
  cases stream
  cases other
  cases h
  rfl

theorem Placed.not_registered (h : Placed role d) (hrole : role = .client) {stream : StreamId} {rest : List StreamId}
    (hspare : d.spare = stream :: rest) : d.registry[stream.val]? = none := by
  by_contra hne
  obtain ⟨entry, hentry⟩ := Option.ne_none_iff_exists'.mp hne
  obtain ⟨other, hother, hval⟩ := h.registered hrole _ _ hentry
  cases StreamId.eq_of_val hval
  have hnodup := h.nodup
  rw [h.opened, hspare, List.nodup_append] at hnodup
  exact hnodup.2.2 _ hother _ List.mem_cons_self rfl

theorem hand_popped {hand : Option Hand} (h : handState hand = .popped) :
    ∃ command stream, hand = some ⟨command, stream, false⟩ := by
  obtain _ | ⟨command, stream, _ | _⟩ := hand
  · cases h
  · exact ⟨command, stream, rfl⟩
  · cases h

theorem hand_admitted {hand : Option Hand} (h : handState hand = .admitted) :
    ∃ command stream, hand = some ⟨command, stream, true⟩ := by
  obtain _ | ⟨command, stream, _ | _⟩ := hand
  · cases h
  · cases h
  · exact ⟨command, stream, rfl⟩

variable [QuicConnection β] [Nghttp3 ν] [Handlers η] {strict : Prop} {w : World β ν η} {k : Desk}

theorem placed_applyOp (h : Placed role w.driver) {op : Op β ν α} (hfresh : fresh w op = true)
    (htracks : Tracks strict w k) (hallows : k.allows strict role op) : Placed role (applyOp w op).2.driver := by
  by_cases hstreams : handles op = false ∧ registers op = false
  · have hsame := sameHand_applyOp w hstreams.1
    exact h.of_eq hsame.hand hsame.spare hsame.used hsame.openedBi (fewer_applyOp w hstreams.2)
  cases op with
  | giveStream stream =>
    have hnew : stream ∉ w.driver.openedBi := by simpa [fresh] using hfresh
    refine ⟨?_, ?_, h.client, fun hand hsome => ?_, h.registered⟩
    · simp [applyOp, World.onDriver, h.opened]
    · have hnodup : (w.driver.openedBi ++ [stream]).Nodup := by
        rw [List.nodup_append]
        refine ⟨h.nodup, List.nodup_singleton _, fun other hother last hlast heq => hnew ?_⟩
        rwa [← List.mem_singleton.mp hlast, ← heq]
      exact hnodup
    · have hplaced := h.hand hand hsome
      rw [HandPlaced] at hplaced ⊢
      split
      · rename_i hadmitted
        rwa [if_pos hadmitted] at hplaced
      · rename_i hpopped
        rw [if_neg hpopped] at hplaced
        simp [applyOp, World.onDriver, List.head?_append, hplaced]
  | pop =>
    obtain ⟨-, -, hrole⟩ := hallows
    rw [applyOp]
    split
    · rename_i stream rest command queue hspare hqueue
      refine ⟨h.opened, h.nodup, fun _ => hrole, fun hand hsome => ?_, h.registered⟩
      cases hsome
      simp [HandPlaced, hspare]
    · exact h
  | admitRequest =>
    obtain ⟨command, stream, hhand⟩ := hand_popped (htracks.hand.trans hallows)
    have hrole := h.client (by simp [hhand])
    obtain ⟨rest, hspare⟩ := List.head?_eq_some_iff.mp (show w.driver.spare.head? = some stream from h.hand _ hhand)
    simp only [applyOp, hhand]
    split
    · exact h.of_dropped rfl rfl rfl rfl rfl
    · refine ⟨?_, h.nodup, fun _ => hrole, fun hand hsome => ?_, fun _ key entry hentry => ?_⟩
      · simp [World.onDriver, h.opened, hspare]
      · cases hsome
        simp [HandPlaced, World.onDriver, h.not_registered hrole hspare]
      · obtain ⟨other, hother, hval⟩ := h.registered hrole key entry hentry
        exact ⟨other, List.mem_append_left _ hother, hval⟩
  | refuse error =>
    rw [applyOp]
    dsimp only
    split
    · exact h
    · exact h.of_dropped rfl rfl rfl rfl rfl
  | enterHand ending =>
    obtain ⟨command, stream, hhand⟩ := hand_admitted (htracks.hand.trans hallows)
    have hplaced : stream ∈ w.driver.used ∧ w.driver.registry[stream.val]? = none := h.hand _ hhand
    simp only [applyOp, World.enterHand, hhand]
    refine ⟨h.opened, h.nodup, by simp, by simp, fun hrole key entry hentry => ?_⟩
    rw [getElem?_insert] at hentry
    split at hentry
    · rename_i hkey
      exact ⟨stream, hplaced.1, hkey⟩
    · exact h.registered hrole key entry hentry
  | openExchange stream head =>
    have hserver : role = .server := hallows
    refine ⟨h.opened, h.nodup, h.client, fun hand hsome => ?_, fun hrole => ?_⟩
    · have hclient := h.client (by rw [show w.driver.hand = some hand from hsome]; rfl)
      rw [hserver] at hclient
      cases hclient
    · rw [hserver] at hrole
      cases hrole
  | _ => exact (hstreams ⟨rfl, rfl⟩).elim

end Steps

section Runs
variable [QuicConnection β] [Nghttp3 ν] [Handlers η] [Http] {strict : Prop} {role : Role} {config : Http3Passes.Config}
  {fuel : ℕ} {backend : β} {raw : ν} {handlers : η} {choices : List (Choice Common.Action)}
  {good : {α : Type} → Op β ν α → World β ν η → Prop} {fair : Common.Action → World β ν η → Prop}

omit [QuicConnection β] [Nghttp3 ν] [Handlers η] [Http] in
theorem placed_newWorld : Placed role (newWorld role backend raw handlers).driver where
  opened := rfl
  nodup := List.nodup_nil
  client := nofun
  hand := nofun
  registered _ key entry hentry := by simp [newWorld] at hentry

variable (strict)

theorem careful_placed (hgood : ∀ {α : Type} (op : Op β ν α) w, good op w → strict → Unfailing role op w)
    (hfresh : ∀ {α : Type} (op : Op β ν α) w, good op w → fresh w op = true)
    (h : (connection role config fuel).Careful (newWorld role backend raw handlers) good fair choices) :
    (connection role config fuel).Careful (newWorld role backend raw handlers)
      (fun op w => (good op w ∧ ∃ k : Desk, Tracks strict w k ∧ k.allows strict role op) ∧ Placed role w.driver)
      (fun action w => fair action w ∧ Placed role w.driver) choices := by
  refine careful_invariant (I := fun w => Placed role w.driver) placed_newWorld ?_ ?_ (careful_tracked strict hgood h)
  · intro α op w hplaced ⟨hop, k, htracks, hallows⟩
    exact placed_applyOp hplaced (hfresh op w hop) htracks hallows
  · intro action w hplaced _
    exact hplaced

end Runs

end Ngnet.Http3Placement
