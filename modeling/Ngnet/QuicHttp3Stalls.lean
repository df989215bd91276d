import Ngnet.QuicHttp3Timers
import Ngnet.Http3Passes

/-!
# What a transmit pass of a native QUIC connection leaves behind

`transmit::drain` stops asking for offers for several reasons, and says to nobody which it was. Where there is more to
write, the driver comes back if it has an event to take, if its task is woken, or if the stream that was refused last is
in its own list of blocked streams.
-/

namespace Ngnet.QuicHttp3Join
open QmuxVarints QmuxStreams
open QuicEndpoint (Transport ConnectionShared ConnCall outboundDataQueue)
open QuicStreamWrites (StreamWrite)
open QmuxConnection (Poll)
open QmuxRecordWriter (Waker)
open QmuxHttp3Join (NextWrite StreamSource WriteOutcome)
open InterleavedPrograms (Prog Atomic outright_bind outright_perform outright_pure of_outright_bind)

/-! ## Sources that list what is blocked -/

/-- A source with a list of blocked streams, to which it adds a stream whose offer is refused. -/
class BlockingSource (σ : Type) extends StreamSource σ where
  blocked : σ → List StreamId
  lists : ∀ {source : σ} {stream : StreamId} {slices : List Bytes} {fin : Bool} {apply : WriteOutcome → Bool × σ},
    writeNext source = .offer stream slices fin apply → (apply .blocked).1 = true →
      stream ∈ blocked (apply .blocked).2

/-! ### The source of the driver -/

section Driver
open Http3Driver Http3Passes Http3Conn

/-- `Offers`, with the driver that it borrows from. -/
structure DriverOffers (β ν η : Type) where
  world : World β ν η
  offers : Offers

namespace DriverOffers
variable {β ν η : Type} [QuicConnection β] [Nghttp3 ν] [Handlers η]

/-- `write_next`, where every offer has this verdict. -/
def written (source : DriverOffers β ν η) (outcome : WriteOutcome) :
    Option (Option Offer × Bool × Offers) × World β ν η :=
  (Http3Passes.writeNext (fun _ => outcome) 2 source.offers : DriverM β ν _).outright source.world

def apply (source : DriverOffers β ν η) (outcome : WriteOutcome) : Bool × DriverOffers β ν η :=
  match source.written outcome with
  | (some (_, more, offers), world) => (more, ⟨world, offers⟩)
  | (none, world) => (false, ⟨world, source.offers⟩)

instance : StreamSource (DriverOffers β ν η) where
  writeNext source :=
    match source.written .blocked with
    | (some (some offer, _), _) => .offer offer.stream offer.slices offer.fin source.apply
    | (some (none, _, offers), world) => .idle ⟨world, offers⟩
    | (none, world) => .idle ⟨world, source.offers⟩

theorem listed_applyOffer {offers offers' : Offers} {offer : Offer} {w w' : World β ν η}
    (h : (applyOffer offers offer .blocked : DriverM β ν _).outright w = (some (true, offers'), w')) :
    offer.stream ∈ w'.driver.locals.blocked := by
  simp only [applyOffer, dispose, pushBlocked, outright_bind, outright_perform, outright_pure, if_true] at h
  split at h
  · cases h
  · obtain rfl : _ = w' := congrArg Prod.snd h
    exact List.mem_append_right _ (List.mem_singleton_self _)

theorem listed_writeNext {n : ℕ} {offers offers' : Offers} {offer : Offer} {w w' : World β ν η}
    (h : (Http3Passes.writeNext (fun _ => .blocked) n offers : DriverM β ν _).outright w = (some (some offer, true, offers'), w')) :
    offer.stream ∈ w'.driver.locals.blocked := by
  induction n generalizing offers w with
  | zero => cases h
  | succ n ih =>
    rw [Http3Passes.writeNext] at h
    split at h
    · cases h
    · obtain ⟨answer, between, -, h⟩ := of_outright_bind h
      rcases answer with error | _ | offered
      · cases h
      · obtain ⟨empty, between', -, h⟩ := of_outright_bind h
        split at h
        · cases h
        · obtain ⟨blocked, between, -, h⟩ := of_outright_bind h
          obtain ⟨_ | _, between', -, h⟩ := of_outright_bind h
          · cases h
          · exact ih h
      · obtain ⟨⟨more, answered⟩, between', happly, h⟩ := of_outright_bind h
        cases h
        exact listed_applyOffer happly

instance : BlockingSource (DriverOffers β ν η) where
  blocked source := source.world.driver.locals.blocked
  lists {source stream slices fin apply} hoffer hmore := by
    simp only [StreamSource.writeNext] at hoffer
    split at hoffer
    · rename_i offer answered world hwritten
      obtain ⟨more, offers⟩ := answered
      cases hoffer
      simp only [DriverOffers.apply, hwritten] at hmore ⊢
      subst hmore
      exact listed_writeNext hwritten
    · cases hoffer
    · cases hoffer

end DriverOffers

end Driver

/-! ## What a pass leaves -/

/-- The refusal is for the whole connection: congestion, pacing or its window. -/
def isConnectionWide : StreamWrite → Bool
  | .blocked | .connectionBlocked => true
  | _ => false

section Strands
variable {κ σ : Type} [Transport κ] [StreamSource σ]

/-- The answers to the offers of a pass leave nothing that brings the driver back: none of them took bytes, and either
the offers are spent, or the last of them was the end of a stream only, or was refused for its stream. -/
def strands (now : ℕ) : ℕ → ℕ → σ → κ → Bool
  | 0, _, _, _ => true
  | _ + 1, 0, _, _ => false
  | offers + 1, room + 1, source, conn =>
    match StreamSource.writeNext source with
    | .idle _ => false
    | .offer stream slices fin apply =>
      let ((answer, _), _, conn) := Transport.call (.writeStream stream slices.flatten fin now) conn
      match answer with
      | .ok (.datagram _ accepted) => accepted = 0 && (apply (.accepted accepted)).1
      | .ok (.datagramWithoutStream _) => (apply .blocked).1 && strands now offers room (apply .blocked).2 conn
      | .ok answer => (apply .blocked).1 && !isConnectionWide answer
      | .error error =>
        error.kind = .streamClosed && (apply .gone).1 && strands now offers (room + 1) (apply .gone).2 conn

/-- How a pass ends that strands what is left. -/
def PassEnd.strands : PassEnd → Bool
  | .spent | .finished _ => true
  | .refused _ answer => !isConnectionWide answer
  | _ => false

theorem strands_offerAll (now offers room : ℕ) (source : σ) (conn : κ) : strands now offers room source conn =
    ((offerAll now offers room source conn).accepted.isEmpty && (offerAll now offers room source conn).stop.strands) := by
  induction offers generalizing room source conn with
  | zero => rfl
  | succ offers ih =>
    cases room with
    | zero => rfl
    | succ room =>
      simp only [offerAll, strands]
      cases StreamSource.writeNext source with
      | idle source => rfl
      | offer stream slices fin apply =>
        dsimp only
        generalize Transport.call (.writeStream stream slices.flatten fin now) conn = answer
        obtain ⟨⟨answer, buffer⟩, notes, conn⟩ := answer
        rcases answer with error | (⟨len, accepted⟩ | len | _ | _ | _ | _)
        · by_cases hclosed : error.kind = .streamClosed
          · cases (apply .gone).1 <;> simp [hclosed, Pass.behind, PassEnd.strands, ih]
          · simp [hclosed, PassEnd.strands]
        · cases accepted with
          | zero => cases hmore : (apply (.accepted 0)).1 <;> simp [hmore, Pass.behind, PassEnd.strands]
          | succ accepted => simp [Pass.behind]
        · cases (apply .blocked).1 <;> simp [Pass.behind, PassEnd.strands, ih]
        all_goals cases (apply .blocked).1 <;> simp [PassEnd.strands]

theorem datagrams_offerAll (now offers room : ℕ) (source : σ) (conn : κ)
    (hfull : (offerAll now offers room source conn).stop = .full) :
    (offerAll now offers room source conn).datagrams.length = room := by
  induction offers generalizing room source conn with
  | zero => cases hfull
  | succ offers ih =>
    cases room with
    | zero => rfl
    | succ room =>
      simp only [offerAll] at hfull ⊢
      cases hnext : StreamSource.writeNext source with
      | idle source =>
        rw [hnext] at hfull
        cases hfull
      | offer stream slices fin apply =>
        rw [hnext] at hfull
        dsimp only at hfull ⊢
        generalize Transport.call (.writeStream stream slices.flatten fin now) conn = answer at hfull ⊢
        obtain ⟨⟨answer, buffer⟩, notes, conn⟩ := answer
        dsimp only at hfull ⊢
        repeat' split at hfull
        all_goals simp_all [Pass.behind]

end Strands

section Lists
variable {κ σ : Type} [Transport κ] [BlockingSource σ]

theorem blocked_offerAll (now offers room : ℕ) (source : σ) (conn : κ) {stream : StreamId} {answer : StreamWrite}
    (hrefused : (offerAll now offers room source conn).stop = .refused stream answer) :
    stream ∈ BlockingSource.blocked (offerAll now offers room source conn).source := by
  induction offers generalizing room source conn with
  | zero => cases hrefused
  | succ offers ih =>
    cases room with
    | zero => cases hrefused
    | succ room =>
      simp only [offerAll] at hrefused ⊢
      cases hnext : StreamSource.writeNext source with
      | idle source =>
        rw [hnext] at hrefused
        cases hrefused
      | offer stream slices fin apply =>
        have hlists := BlockingSource.lists hnext
        rw [hnext] at hrefused
        dsimp only at hrefused ⊢
        generalize Transport.call (.writeStream stream slices.flatten fin now) conn = answer at hrefused ⊢
        obtain ⟨⟨answer, buffer⟩, notes, conn⟩ := answer
        dsimp only at hrefused ⊢
        repeat' split at hrefused
        all_goals simp_all [Pass.behind]

end Lists

/-! ## What brings the driver back -/

section Returning
variable {κ : Type}

/-- A report of released buffers is queued. -/
def Released (c : Connection κ) : Prop := ∃ stream bytes, .released stream bytes ∈ c.pending

variable [Detachable κ]

theorem released_collect (c : Connection κ) : Released c.collect ↔ Released c := by
  simp only [Released, (collects c).pending, List.mem_append]
  refine exists₂_congr fun stream bytes => or_iff_left ?_
  intro hmem
  obtain ⟨event, -, hrecord⟩ := List.mem_filterMap.mp hmem
  cases event <;> simp [Recorded.ofObserved] at hrecord

omit [Detachable κ] in
theorem releases_eq (accepted : List (StreamId × ℕ)) (c : Connection κ) :
    accepted.foldl (fun c released => c.recordReleased released.1 released.2) c =
      { c with
        pending := c.pending ++ accepted.map fun released => .released released.1 released.2
        history := c.history ++ accepted.map fun released => .recorded (.released released.1 released.2 true) } := by
  induction accepted generalizing c with
  | nil => simp
  | cons released accepted ih =>
    rw [List.foldl_cons, ih]
    simp [Connection.recordReleased]

theorem outbound_queueOutbound (datagrams : List Bytes) (shared : ConnectionShared)
    (h : outboundDataQueue ≤ shared.outbound.length + datagrams.length) :
    (datagrams.foldl ConnectionShared.queueOutbound shared).outboundHasRoom = false := by
  induction datagrams generalizing shared with
  | nil => exact decide_eq_false (Nat.not_lt.mpr (by simpa using h))
  | cons datagram datagrams ih =>
    refine ih _ ?_
    simp only [ConnectionShared.queueOutbound, ConnectionShared.outboundHasRoom, decide_eq_true_eq, List.length_cons] at h ⊢
    split
    · simp only [List.length_append, List.length_singleton]
      omega
    · omega

variable {σ : Type} [BlockingSource σ]

/-- The pass of a call of `poll_transmit`. -/
def Connection.passed (c : Connection κ) (waker : Waker) (source : σ) : Pass κ σ :=
  (c.pump waker).2.collect.pass source

/-- Whether the answers to its offers leave nothing behind. -/
def Connection.strands (c : Connection κ) (waker : Waker) (source : σ) : Bool :=
  let c := (c.pump waker).2.collect
  QuicHttp3Join.strands c.now maxOffers (outboundDataQueue - c.shared.outbound.length) source c.conn

/-- The driver is certain to transmit again: it has buffers to take back, its task was woken, it is registered for room
in a queue that is full, or the whole connection refused the last offer and its stream is listed. -/
def Returns (c : Connection κ) (waker : Waker) (stop : PassEnd) (source : σ) (c' : Connection κ) : Prop :=
  Released c' ∨ Woken c c' waker ∨
    (stop = .full ∧ c'.shared.outboundHasRoom = false ∧ waker ∈ c'.capacityWakers) ∨
    ∃ stream answer, stop = .refused stream answer ∧ isConnectionWide answer = true ∧
      stream ∈ BlockingSource.blocked source

/-- What brings the driver back whatever is offered: buffers it has yet to take back, a stream that its task has waited
for, or a timer that is due behind the pass. -/
def Expected (c : Connection κ) (waker : Waker) (source : σ) : Prop :=
  Released c ∨
    (waker ∈ c.limitWakers ∧ (c.shared.observed ++ c.answers.notes.filterMap observedOf).any isExtension = true) ∨
    Due { c with conn := (c.passed waker source).conn }

/-- What a pass leaves of the connection. -/
structure Drained (c : Connection κ) (waker : Waker) (source : σ) : Prop where
  conn : (c.drain waker source).conn = (c.pass source).conn
  released : Released (c.drain waker source) ↔ Released c ∨ (c.pass source).accepted ≠ []
  full : (c.pass source).stop = .full →
    (c.drain waker source).shared.outboundHasRoom = false ∧ waker ∈ (c.drain waker source).capacityWakers

theorem drained (c : Connection κ) (waker : Waker) (source : σ) : Drained c waker source := by
  have hpending : (c.drain waker source).pending =
      c.pending ++ (c.pass source).accepted.map fun released => .released released.1 released.2 := by
    simp only [Connection.drain, releases_eq]
    split <;> rfl
  constructor
  · simp only [Connection.drain, releases_eq]
    split <;> rfl
  · simp only [Released, hpending, List.mem_append, exists_or]
    refine or_congr_right ?_
    cases (c.pass source).accepted with
    | nil => simp
    | cons released accepted => exact iff_of_true ⟨released.1, released.2, by simp⟩ (List.cons_ne_nil _ _)
  · intro hfull
    simp only [Connection.drain, releases_eq, if_pos hfull]
    constructor
    · refine outbound_queueOutbound _ _ ?_
      have hlength : (c.pass source).datagrams.length = _ := datagrams_offerAll _ _ _ _ _ hfull
      rw [hlength, Connection.noted, outbound_notes]
      omega
    · rw [registered]
      split
      · assumption
      · simp

/-- What a call of `poll_transmit` leaves that is ready. -/
structure Transmitted (c : Connection κ) (waker : Waker) (source : σ)
    (result : Poll (Except JoinError Unit) × σ × Connection κ) : Prop where
  kept : result.2.1 = (c.passed waker source).source
  sound : ∀ error, (c.passed waker source).stop ≠ .failed error
  released : Released result.2.2 ↔ Released c ∨ (c.passed waker source).accepted ≠ []
  woken : Woken c result.2.2 waker ↔
    (waker ∈ c.limitWakers ∧ (c.shared.observed ++ c.answers.notes.filterMap observedOf).any isExtension = true) ∨
      Due { c with conn := (c.passed waker source).conn }
  full : (c.passed waker source).stop = .full →
    result.2.2.shared.outboundHasRoom = false ∧ waker ∈ result.2.2.capacityWakers

theorem transmitted {c : Connection κ} (h : Armed c) (waker : Waker) (source : σ)
    (hready : (c.pollTransmit waker source).1 = .ready (.ok ())) :
    Transmitted c waker source (c.pollTransmit waker source) := by
  have hpump := undisturbed_pump c waker
  have hpumps := pumps_pump c waker
  have hobserved := observed_pump c waker
  have hcollected := armed_collect h waker
  have hpassed : c.passed waker source = (c.pump waker).2.collect.pass source := rfl
  simp only [Connection.pollTransmit] at hready ⊢
  generalize c.pump waker = result at *
  obtain ⟨_ | error, c₁⟩ := result
  · have hcollect := extends_collect c₁
    rw [show c₁.shared.observed = _ from hobserved] at hcollect
    dsimp only at hready ⊢
    split at hready
    · cases hready
    · rename_i hopen
      rw [if_neg hopen]
      have hdrain := drained c₁.collect waker source
      have hquiet := undisturbed_drain c₁.collect waker source
      have hpolled := polled_pollTimer (hcollected.of_eq hquiet.sleeping hquiet.sleepingUntil) waker
      obtain ⟨sleeping, sleepingUntil, htimer⟩ := pollTimer_eq (c₁.collect.drain waker source) waker
      have hreleased : Released c₁.collect ↔ Released c := by
        cases hending : c.answers.isEnding with
        | true =>
          obtain ⟨c', code, -, heq⟩ := hpumps.ends hending
          refine absurd ?_ hopen
          rw [(collects c₁).closed, show c₁ = _ from heq]
          rfl
        | false =>
          rw [released_collect, Released, show c₁.pending = c.pending from (hpumps.adds hending).1.pending]
          rfl
      have hdue : Due (c₁.collect.drain waker source) ↔ Due { c with conn := (c₁.collect.pass source).conn } := by
        simp only [Due, hdrain.conn, hquiet.now, hcollect.now, show c₁.now = c.now from hpump.now, hquiet.sleeping,
          hcollect.sleeping, show c₁.sleeping = c.sleeping from hpump.sleeping]
      split
      · rename_i error hfailed
        rw [hfailed] at hready
        cases hready
      · rename_i hsound
        obtain ⟨c', hc'⟩ : ∃ c', c' = if ((c₁.collect.drain waker source).pollTimer waker).1 then
          ((c₁.collect.drain waker source).pollTimer waker).2.wake [waker]
          else ((c₁.collect.drain waker source).pollTimer waker).2 := ⟨_, rfl⟩
        have hkept : c'.pending = (c₁.collect.drain waker source).pending ∧
            c'.shared = (c₁.collect.drain waker source).shared ∧
            c'.capacityWakers = (c₁.collect.drain waker source).capacityWakers := by
          rw [hc', htimer]
          split <;> exact ⟨rfl, rfl, rfl⟩
        rw [← hc']
        constructor
        case kept => rw [hpassed]
        case sound => exact hpassed ▸ hsound
        case released => rw [Released, hkept.1, hpassed, ← hreleased, ← hdrain.released, Released]
        case woken =>
          rw [hpassed, ← hdue, ← hpolled.due]
          generalize (c.shared.observed ++ c.answers.notes.filterMap observedOf).any isExtension = raised at *
          have hwoken : c'.woken = c.woken ++ ((if raised then c.limitWakers else []) ++
              if ((c₁.collect.drain waker source).pollTimer waker).1 then [waker] else []) := by
            rw [hc', htimer]
            split <;> simp [Connection.wake, hquiet.woken, hcollect.woken, show c₁.woken = c.woken from hpump.woken,
              show c₁.limitWakers = c.limitWakers from hpump.limitWakers]
          rw [woken_append hwoken]
          cases raised <;> cases ((c₁.collect.drain waker source).pollTimer waker).1 <;> simp
        case full =>
          rw [hpassed, hkept.2.1, hkept.2.2]
          exact hdrain.full
  · cases hready

/-- A pass that asks for more and does not strand it has ended for want of room, or by a refusal of the whole
connection. -/
theorem strands_eq_false {stop : PassEnd} (hmore : stop ≠ .dry) (hsound : ∀ error, stop ≠ .failed error) :
    stop.strands = false ↔
      stop = .full ∨ ∃ stream answer, stop = .refused stream answer ∧ isConnectionWide answer = true := by
  cases stop <;> simp_all [PassEnd.strands]

/-- The driver comes back to what it still has to write if and only if the answers to its offers leave something behind,
or something else is expected. -/
theorem returns_pollTransmit {c : Connection κ} (h : Armed c) (waker : Waker) (source : σ)
    (hready : (c.pollTransmit waker source).1 = .ready (.ok ())) (hmore : (c.passed waker source).stop ≠ .dry) :
    Returns c waker (c.passed waker source).stop (c.pollTransmit waker source).2.1 (c.pollTransmit waker source).2.2 ↔
      c.strands waker source = false ∨ Expected c waker source := by
  have htransmitted := transmitted h waker source hready
  have hstrands : c.strands waker source =
      ((c.passed waker source).accepted.isEmpty && (c.passed waker source).stop.strands) := strands_offerAll ..
  have hlists : ∀ stream answer, (c.passed waker source).stop = .refused stream answer →
      stream ∈ BlockingSource.blocked (c.passed waker source).source := fun stream answer => blocked_offerAll _ _ _ _ _
  rw [hstrands, Bool.and_eq_false_iff, strands_eq_false hmore htransmitted.sound, Expected, Returns,
    htransmitted.released, htransmitted.woken, htransmitted.kept]
  have hfull : ((c.passed waker source).stop = .full ∧ (c.pollTransmit waker source).2.2.shared.outboundHasRoom = false ∧
      waker ∈ (c.pollTransmit waker source).2.2.capacityWakers) ↔ (c.passed waker source).stop = .full :=
    and_iff_left_of_imp htransmitted.full
  have hrefused : (∃ stream answer, (c.passed waker source).stop = .refused stream answer ∧
      isConnectionWide answer = true ∧ stream ∈ BlockingSource.blocked (c.passed waker source).source) ↔
        ∃ stream answer, (c.passed waker source).stop = .refused stream answer ∧ isConnectionWide answer = true := by
    refine exists₂_congr fun stream answer => and_congr_right fun heq => and_iff_left ?_
    exact hlists stream answer heq
  rw [hfull, hrefused, List.isEmpty_eq_false_iff]
  constructor
  · rintro ((hreleased | haccepted) | hwoken | hstop)
    · exact .inr (.inl hreleased)
    · exact .inl (.inl haccepted)
    · exact .inr (.inr hwoken)
    · exact .inl (.inr hstop)
  · rintro ((haccepted | hstop) | hreleased | hwoken)
    · exact .inl (.inr haccepted)
    · exact .inr (.inr hstop)
    · exact .inl (.inl hreleased)
    · exact .inr (.inl hwoken)

/-- At any time, a pass that was not told that there is nothing more to write brings the driver back if and only if the
answers to its offers leave something behind, or something else is expected. -/
theorem returns_reached (conn : κ) (self : Initiator) (shared : ConnectionShared) (now : ℕ) (actions : List (Action σ))
    (waker : Waker) (source : σ) (c : Connection κ)
    (hreached : c = reached (newConnection conn self shared now) actions)
    (hready : (c.pollTransmit waker source).1 = .ready (.ok ())) (hmore : (c.passed waker source).stop ≠ .dry) :
    Returns c waker (c.passed waker source).stop (c.pollTransmit waker source).2.1 (c.pollTransmit waker source).2.2 ↔
      c.strands waker source = false ∨ Expected c waker source := by
  have harmed : Armed c := by
    rw [hreached]
    exact armed_reached (c := newConnection conn self shared now) rfl actions
  exact returns_pollTransmit harmed waker source hready hmore

end Returning

/-! ## Two streams -/

/-- The offers that are left, and the streams that were refused. -/
structure ListingSource where
  offers : List (StreamId × List Bytes × Bool)
  blocked : List StreamId := []

instance : BlockingSource ListingSource where
  writeNext source :=
    match source.offers with
    | [] => .idle source
    | (stream, slices, fin) :: offers =>
      .offer stream slices fin fun outcome =>
        (true, ⟨offers, if outcome = .blocked then stream :: source.blocked else source.blocked⟩)
  blocked := ListingSource.blocked
  lists {source stream slices fin apply} hoffer _ := by
    split at hoffer
    · cases hoffer
    · cases hoffer
      exact List.mem_cons_self

def firstStream : StreamId := ⟨0, zero_le_maxVarint⟩

def secondStream : StreamId := ⟨4, four_le_maxVarint⟩

/-- Bytes on one stream and then on the other, of which the second are refused by the congestion window. -/
def congested : Connection ScriptedConnection :=
  newConnection ⟨{ streamWrites := [(.datagram 30 1, [1], []), (.blocked, [], [])] }⟩ .client {} 0

def twoWrites : ListingSource := ⟨[(firstStream, [[7]], false), (secondStream, [[8]], true)], []⟩

theorem returns_congested : Returns congested 0 (.refused secondStream .blocked) (congested.pollTransmit 0 twoWrites).2.1
    (congested.pollTransmit 0 twoWrites).2.2 :=
  (returns_reached _ _ _ _ [] 0 twoWrites congested rfl rfl (by decide)).mpr (.inl (by decide))

/-- The end of one stream is all that is taken, and the bytes of the other are not asked for. -/
theorem end_before_bytes : ∃ (conn : ScriptedConnection) (actions : List (Action ListingSource)) (source : ListingSource),
    let c := reached (newConnection conn .client {} 0) actions
    (c.pollTransmit 0 source).1 = .ready (.ok ()) ∧ (c.pollTransmit 0 source).2.1.offers = [(secondStream, [[8]], true)] ∧
      (c.passed 0 source).stop ≠ .dry ∧
      ¬ Returns c 0 (c.passed 0 source).stop (c.pollTransmit 0 source).2.1 (c.pollTransmit 0 source).2.2 := by
  refine ⟨⟨{ streamWrites := [(.datagram 30 0, [1], [])] }⟩, [],
    ⟨[(firstStream, [], true), (secondStream, [[8]], true)], []⟩, rfl, rfl, by decide, ?_⟩
  rintro (⟨stream, bytes, hreleased⟩ | hwoken | ⟨hfull, -⟩ | ⟨stream, answer, hrefused, -⟩)
  · exact nomatch (show Recorded.released stream bytes ∈ ([] : List Recorded) from hreleased)
  · exact nomatch (show (0 : Waker) ∈ ([] : List Waker) from hwoken)
  · exact nomatch (show PassEnd.finished firstStream = .full from hfull)
  · exact nomatch (show PassEnd.finished firstStream = .refused stream answer from hrefused)

end Ngnet.QuicHttp3Join
