import Ngnet.QuicHyperiumBooks

/-!
# Credit for the streams of the peer

The transport lets the peer open as many streams as were advertised and refunded, and never refunds one by itself. The
join for the HTTP/3 layer refunds a stream where it collects that the stream was closed. The one for hyperium's traits
refunds it where it is accepted, whether or not it is closed.
-/

namespace Ngnet.QuicStreamCredit
open QmuxVarints QmuxStreams QuicMeters
open QuicEndpoint (Transport ConnectionShared ConnCall Observed Note)
open QmuxHttp3Join (StreamSource)
open QmuxRecordWriter (Waker)

variable {κ : Type}

/-! ## What is owed -/

/-- The streams of the kind that the peer has opened. -/
def openings (self : Initiator) (kind : Directionality) (observed : List Observed) : ℕ :=
  observed.countP (peerOpened self kind)

/-- Those of them that were closed. -/
def closings (self : Initiator) (kind : Directionality) (observed : List Observed) : ℕ :=
  observed.countP (peerClosed self kind)

theorem openings_append (self : Initiator) (kind : Directionality) (observed more : List Observed) :
    openings self kind (observed ++ more) = openings self kind observed + openings self kind more :=
  List.countP_append

theorem closings_append (self : Initiator) (kind : Directionality) (observed more : List Observed) :
    closings self kind (observed ++ more) = closings self kind observed + closings self kind more :=
  List.countP_append

/-- A stream is refunded once, when it was closed; so no more are open at the same time than were advertised, and where
fewer are, the peer can open one. The transport lets it open what was advertised and refunded. -/
structure Refunds (limit opened closed refunded : ℕ) (collected : Prop) : Prop where
  never : refunded ≤ closed
  once : collected → refunded = closed
  bounded : opened ≤ limit + refunded → opened ≤ limit + closed
  room : collected → opened < limit + closed → opened < limit + refunded

theorem refunds_iff {limit opened closed refunded : ℕ} {collected : Prop} :
    Refunds limit opened closed refunded collected ↔ refunded ≤ closed ∧ (collected → refunded = closed) := by
  constructor
  · exact fun h => ⟨h.never, h.once⟩
  · rintro ⟨hnever, honce⟩
    refine ⟨hnever, honce, fun hadmitted => by omega, fun hcollected hfewer => ?_⟩
    rw [honce hcollected]
    exact hfewer

/-! ## The join for the HTTP/3 layer -/

section Join
open QuicHttp3Join (Connection Detachable readAll lapse produceAll observed_queueOutbound)

/-- The connection goes on and refunds nothing. -/
structure Proceeds (c c' : Connection (Metered κ)) : Prop where
  self : c'.self = c.self
  goes : ∃ bytes, Goes bytes c.conn c.shared c'.conn c'.shared

namespace Proceeds
variable {c c' c'' : Connection (Metered κ)}

theorem trans (h : Proceeds c c') (h' : Proceeds c' c'') : Proceeds c c'' := by
  obtain ⟨bytes, hgoes⟩ := h.goes
  obtain ⟨bytes', hgoes'⟩ := h'.goes
  exact ⟨h'.self.trans h.self, bytes + bytes', hgoes.trans hgoes'⟩

theorem of_observed (hself : c'.self = c.self) (hconn : c'.conn = c.conn)
    (hobserved : c'.shared.observed = c.shared.observed) : Proceeds c c' := by
  refine ⟨hself, 0, ?_⟩
  rw [hconn]
  exact .of_observed hobserved

theorem refl (c : Connection (Metered κ)) : Proceeds c c := .of_observed rfl rfl rfl

end Proceeds

theorem proceeds_noted (c : Connection (Metered κ)) {bytes : ℕ} {notes : List Note} {conn : Metered κ}
    (h : Reports bytes c.conn notes conn) : Proceeds c (c.noted notes conn) := ⟨rfl, bytes, .of_reports h rfl⟩

theorem proceeds_send (c : Connection (Metered κ)) (datagrams : List Bytes) : Proceeds c (c.send datagrams) :=
  .of_observed rfl rfl (observed_queueOutbound datagrams c.shared)

theorem proceeds_takeEvent (waker : Waker) (pending : List QuicHttp3Join.Recorded) (c : Connection (Metered κ)) :
    Proceeds c (Connection.takeEvent waker pending c).2 := by
  induction pending with
  | nil => exact .of_observed rfl rfl rfl
  | cons record pending ih =>
    simp only [Connection.takeEvent]
    split
    · exact .of_observed rfl rfl rfl
    · split
      · exact .of_observed rfl rfl rfl
      · exact ih

theorem proceeds_releases (accepted : List (StreamId × ℕ)) (c : Connection (Metered κ)) :
    Proceeds c (accepted.foldl (fun c released => c.recordReleased released.1 released.2) c) := by
  induction accepted generalizing c with
  | nil => exact .refl c
  | cons released accepted ih =>
    have hone : Proceeds c (c.recordReleased released.1 released.2) := .of_observed rfl rfl rfl
    exact hone.trans (ih _)

section Driving
variable [Transport κ]

theorem proceeds_call {α : Type} (op : ConnCall α) (c : Connection (Metered κ)) :
    Proceeds c (c.noted (Transport.call op c.conn).2.1 (Transport.call op c.conn).2.2) :=
  proceeds_noted c (reports_call op c.conn)

theorem proceeds_produce (c : Connection (Metered κ)) (capacityWaker : Option Waker) :
    Proceeds c (c.produce capacityWaker).2 := by
  have hsent := fun turns room => (proceeds_noted c (reports_produceAll c.now turns room c.conn)).trans
    (proceeds_send _ (produceAll c.now turns room c.conn).datagrams)
  simp only [Connection.produce]
  repeat' split
  all_goals exact (hsent _ _).trans (.of_observed rfl rfl rfl)

theorem proceeds_expire (c : Connection (Metered κ)) (waker : Waker) : Proceeds c (c.expire waker).2 := by
  simp only [Connection.expire]
  split
  · rename_i answer notes conn hlapse
    have hnoted := proceeds_noted c (reports_lapse hlapse)
    split
    · exact hnoted.trans (proceeds_produce _ _)
    all_goals exact hnoted.trans (.of_observed rfl rfl rfl)
  · exact proceeds_produce c _

theorem proceeds_pump (c : Connection (Metered κ)) (waker : Waker) : Proceeds c (c.pump waker).2 := by
  have hread : Reports 0 c.conn (readAll c.now c.shared.inbound c.conn).notes (readAll c.now c.shared.inbound c.conn).conn :=
    reports_readAll c.now c.shared.inbound c.conn
  have hnoted : ∀ wakers inbound, Proceeds c ((({ c with
      wakers, shared := { c.shared with inbound } } : Connection (Metered κ)).noted
        (readAll c.now c.shared.inbound c.conn).notes (readAll c.now c.shared.inbound c.conn).conn)) := by
    intro wakers inbound
    have hinbound : Proceeds c { c with wakers, shared := { c.shared with inbound } } := .of_observed rfl rfl rfl
    exact hinbound.trans (proceeds_noted _ hread)
  simp only [Connection.pump]
  split
  · exact (hnoted _ _).trans (.of_observed rfl rfl rfl)
  · exact (hnoted _ _).trans (.of_observed rfl rfl rfl)
  · split
    · exact hnoted _ _
    · exact (hnoted _ _).trans (proceeds_expire _ waker)

theorem proceeds_pollTimer (c : Connection (Metered κ)) (waker : Waker) : Proceeds c (c.pollTimer waker).2 := by
  have harmed : ∀ (c : Connection (Metered κ)) preserved, Proceeds c (c.pollArmed waker preserved).2 := by
    intro c preserved
    simp only [Connection.pollArmed]
    split
    · exact .refl c
    · split <;> exact .of_observed rfl rfl rfl
  have hslept : ∀ deadline preserved, Proceeds c ((c.arm deadline).pollArmed waker preserved).2 := by
    intro deadline preserved
    have harm : Proceeds c (c.arm deadline) := .of_observed rfl rfl rfl
    exact harm.trans (harmed _ _)
  simp only [Connection.pollTimer]
  split
  · exact .of_observed rfl rfl rfl
  · split
    · exact harmed c _
    · split
      · split
        · split
          · exact hslept _ _
          · exact .of_observed rfl rfl rfl
        · exact hslept _ _
      · exact hslept _ _

end Driving

/-- A connection that was handed over with `before` observed on it has refunded every stream it has collected. -/
structure Refunding (side : Initiator) (before : List Observed) (c : Connection (Metered κ)) : Prop where
  initiator : c.self = side
  refunded : ∀ kind, c.conn.streams kind + closings side kind c.shared.observed =
    closings side kind (before ++ c.conn.heard)

section Refunding
variable {side : Initiator} {before : List Observed} {c c' : Connection (Metered κ)}

theorem Refunding.proceeds (h : Refunding side before c) (hgoes : Proceeds c c') : Refunding side before c' := by
  refine ⟨hgoes.self.trans h.initiator, fun kind => ?_⟩
  obtain ⟨bytes, -, hstreams, news, hheard, hobserved⟩ := hgoes.goes
  have hbefore := h.refunded kind
  simp only [hstreams, hheard, hobserved, closings_append] at hbefore ⊢
  omega

variable [Detachable κ]

theorem refunded_collectOne (c : Connection (Metered κ)) (event : Observed) :
    (c.collectOne event).self = c.self ∧ (c.collectOne event).shared = c.shared ∧
      (c.collectOne event).conn.heard = c.conn.heard ∧
      ∀ kind, (c.collectOne event).conn.streams kind = c.conn.streams kind + closings c.self kind [event] := by
  cases event with
  | closed stream receiving sending =>
    refine ⟨rfl, rfl, ?_, fun kind => ?_⟩
    · simp only [Connection.collectOne]
      split
      · rfl
      · split <;> rfl
    · simp only [Connection.collectOne, closings, List.countP_singleton, peerClosed, peers]
      by_cases hlocal : stream.initiator = c.self
      · simp [hlocal]
      · have hkinds : stream.directionality = .bidirectional ∨ stream.directionality = .unidirectional := by
          cases stream.directionality <;> simp
        rcases hkinds with hkind | hkind <;>
          simp [hlocal, hkind, Detachable.extendMaxStreamsBidi, Detachable.extendMaxStreamsUni,
            Metered.extendMaxStreams, Function.update_apply] <;>
          cases kind <;> simp
  | _ => exact ⟨rfl, rfl, rfl, fun kind => by simp [Connection.collectOne, closings, peerClosed, Connection.wake]⟩

theorem refunded_collectAll (observed : List Observed) (c : Connection (Metered κ)) :
    let c' := observed.foldl Connection.collectOne c
    c'.self = c.self ∧ c'.shared = c.shared ∧ c'.conn.heard = c.conn.heard ∧
      ∀ kind, c'.conn.streams kind = c.conn.streams kind + closings c.self kind observed := by
  induction observed generalizing c with
  | nil => simp [closings]
  | cons event observed ih =>
    obtain ⟨hself, hshared, hheard, hstreams⟩ := refunded_collectOne c event
    obtain ⟨hself', hshared', hheard', hstreams'⟩ := ih (c.collectOne event)
    refine ⟨hself'.trans hself, hshared'.trans hshared, hheard'.trans hheard, fun kind => ?_⟩
    have hsplit := closings_append c.self kind [event] observed
    rw [List.singleton_append] at hsplit
    rw [List.foldl_cons, hstreams', hstreams, hself, hsplit, Nat.add_assoc]

theorem Refunding.collect (h : Refunding side before c) : Refunding side before c.collect := by
  obtain ⟨hself, hshared, hheard, hstreams⟩ :=
    refunded_collectAll c.shared.observed { c with shared := { c.shared with observed := [] } }
  refine ⟨hself.trans h.initiator, fun kind => ?_⟩
  have hbefore := h.refunded kind
  simp only [Connection.collect]
  rw [hshared, hheard, hstreams]
  simpa [closings, h.initiator] using hbefore

theorem proceeds_pollQuiet (c : Connection (Metered κ)) (waker : Waker) : Proceeds c (c.pollQuiet waker).2 := by
  have htimer := proceeds_pollTimer c waker
  simp only [Connection.pollQuiet]
  split
  · exact .of_observed rfl rfl rfl
  · split <;> exact htimer.trans (.of_observed rfl rfl rfl)

theorem refunding_pollEvent (h : Refunding side before c) (waker : Waker) : Refunding side before (c.pollEvent waker).2 := by
  have hpumped := h.proceeds (proceeds_pump c waker)
  have hanswered : Refunding side before (c.answerEvent waker).2 := by
    simp only [Connection.answerEvent]
    generalize c.pump waker = result at hpumped ⊢
    obtain ⟨error, c⟩ := result
    cases error with
    | some error => exact hpumped
    | none =>
      have hcollected := hpumped.collect
      have htaken := proceeds_takeEvent waker c.collect.pending c.collect
      dsimp only
      split
      · rename_i heq
        rw [heq] at htaken
        exact hcollected.proceeds htaken
      · rename_i heq
        rw [heq] at htaken
        exact hcollected.proceeds htaken
      · rename_i heq
        rw [heq] at htaken
        exact hcollected.proceeds (htaken.trans (proceeds_pollQuiet _ waker))
  exact hanswered.proceeds (.of_observed rfl rfl rfl)

theorem refunding_pollOpen (h : Refunding side before c) (bidi : Bool) (waker : Waker) :
    Refunding side before (c.pollOpen bidi waker).2 := by
  have hpumped := h.proceeds (proceeds_pump c waker)
  simp only [Connection.pollOpen]
  generalize c.pump waker = result at hpumped ⊢
  obtain ⟨error, c⟩ := result
  cases error with
  | some error => exact hpumped
  | none =>
    have hcollected := hpumped.collect
    have hcalled := hcollected.proceeds (proceeds_call (if bidi then .openBidiStream else .openUniStream) c.collect)
    dsimp only
    split
    · exact hcollected
    · split
      · have hproduced := hcalled.proceeds (proceeds_produce _ (some waker))
        split
        · rename_i heq
          rw [heq] at hproduced
          exact hproduced
        · rename_i heq
          rw [heq] at hproduced
          exact hproduced
      · split
        · exact hcalled.proceeds (.of_observed rfl rfl rfl)
        · exact hcalled

variable {σ : Type} [StreamSource σ]

theorem proceeds_drain (c : Connection (Metered κ)) (waker : Waker) (source : σ) : Proceeds c (c.drain waker source) := by
  have hoffered : Proceeds c (c.noted (c.pass source).notes (c.pass source).conn) :=
    proceeds_noted c (reports_offerAll c.now _ _ source c.conn)
  have hreleased := (hoffered.trans (proceeds_send _ (c.pass source).datagrams)).trans
    (proceeds_releases (c.pass source).accepted _)
  simp only [Connection.drain]
  split
  · exact hreleased.trans (.of_observed rfl rfl rfl)
  · exact hreleased

theorem refunding_pollTransmit (h : Refunding side before c) (waker : Waker) (source : σ) :
    Refunding side before (c.pollTransmit waker source).2.2 := by
  have hpumped := h.proceeds (proceeds_pump c waker)
  simp only [Connection.pollTransmit]
  generalize c.pump waker = result at hpumped ⊢
  obtain ⟨error, c⟩ := result
  cases error with
  | some error => exact hpumped
  | none =>
    have hcollected := hpumped.collect
    have hdrained := hcollected.proceeds (proceeds_drain c.collect waker source)
    dsimp only
    split
    · exact hcollected
    · split
      · exact hdrained.proceeds (.of_observed rfl rfl rfl)
      · have htimer := hdrained.proceeds (proceeds_pollTimer _ waker)
        split
        · exact htimer.proceeds (.of_observed rfl rfl rfl)
        · exact htimer

theorem proceeds_reset (c : Connection (Metered κ)) (stream : StreamId) (code : ℕ) :
    Proceeds c (c.reset stream code).2 := by
  have hcalled := proceeds_call (.resetStream stream code) c
  simp only [Connection.reset]
  split
  · exact hcalled.trans (proceeds_produce _ _)
  · exact hcalled

theorem proceeds_stopSending (c : Connection (Metered κ)) (stream : StreamId) (code : ℕ) :
    Proceeds c (c.stopSending stream code).2 := by
  have hcalled := proceeds_call (.stopSending stream code) c
  simp only [Connection.stopSending]
  split
  · exact hcalled.trans (proceeds_produce _ _)
  · exact hcalled

theorem proceeds_extendCredit (c : Connection (Metered κ)) (stream : Option StreamId) (bytes : ℕ) :
    Proceeds c (c.extendCredit stream bytes).2 := by
  cases stream with
  | some stream =>
    have hcalled := proceeds_call (.extendMaxStreamOffset stream bytes) c
    simp only [Connection.extendCredit]
    split <;> exact hcalled
  | none => exact proceeds_call (.extendMaxOffset bytes) c

theorem proceeds_close (c : Connection (Metered κ)) (code : ℕ) (reason : Bytes) :
    Proceeds c (c.close code reason).2 := by
  have hcalled := proceeds_call (.writeConnectionClose code reason c.now) c
  simp only [Connection.close]
  split
  · exact .of_observed rfl rfl rfl
  · split
    · refine hcalled.trans (.of_observed rfl rfl ?_)
      split
      · simp only [Connection.release, ConnectionShared.markTerminal, ConnectionShared.queueCloseOutbound]
        split <;> rfl
      · rfl
    · exact hcalled

theorem refunding_step (h : Refunding side before c) (action : QuicHttp3Join.Action σ) :
    Refunding side before (QuicHttp3Join.step c action) := by
  cases action with
  | pollEvent waker => exact refunding_pollEvent h waker
  | pollTransmit waker source => exact refunding_pollTransmit h waker source
  | pollOpen bidi waker => exact refunding_pollOpen h bidi waker
  | reset stream code => exact h.proceeds (proceeds_reset c stream code)
  | stopSending stream code => exact h.proceeds (proceeds_stopSending c stream code)
  | extendCredit stream bytes => exact h.proceeds (proceeds_extendCredit c stream bytes)
  | close code reason => exact h.proceeds (proceeds_close c code reason)
  | deliver datagram =>
    refine h.proceeds ?_
    simp only [QuicHttp3Join.step, Connection.deliver, ConnectionShared.deliverInbound]
    split <;> exact .of_observed rfl rfl rfl
  | takeOutbound =>
    refine h.proceeds ?_
    simp only [QuicHttp3Join.step, Connection.takeOutbound, ConnectionShared.takeOutbound]
    split <;> split <;> exact .of_observed rfl rfl rfl
  | advance nanos =>
    refine h.proceeds ?_
    simp only [QuicHttp3Join.step, Connection.advance]
    split
    · split <;> exact .of_observed rfl rfl rfl
    · exact .of_observed rfl rfl rfl

theorem refunding_reached (h : Refunding side before c) (actions : List (QuicHttp3Join.Action σ)) :
    Refunding side before (QuicHttp3Join.reached c actions) := by
  induction actions generalizing c with
  | nil => exact h
  | cons action actions ih => exact ih (refunding_step h action)

end Refunding

end Join

/-! ## The join for hyperium's traits -/

section Core
open QuicHyperium

/-- The accept queue of a kind. -/
def queueOf (c : Core κ) : Directionality → List StreamId
  | .bidirectional => c.acceptBidi
  | .unidirectional => c.acceptUni

/-- A core that was handed over with `before` observed on it has refunded every stream that has left its queue. -/
structure Accepting (side : Initiator) (before : List Observed) (c : Core (Metered κ)) : Prop where
  initiator : c.initiator = side
  refunded : ∀ kind, c.conn.streams kind + (queueOf c kind).length = openings side kind c.routed
  observed : c.routed ++ c.shared.observed = before ++ c.conn.heard

section Accepting
variable {side : Initiator} {before : List Observed} {c c' : Core (Metered κ)}

theorem Accepting.goes (h : Accepting side before c) {bytes : ℕ} (hgoes : Goes bytes c.conn c.shared c'.conn c'.shared)
    (hself : c'.initiator = c.initiator) (hrouted : c'.routed = c.routed) (hbidi : c'.acceptBidi = c.acceptBidi)
    (huni : c'.acceptUni = c.acceptUni) : Accepting side before c' := by
  have hqueues : ∀ kind, queueOf c' kind = queueOf c kind := by
    rintro (_ | _)
    · exact hbidi
    · exact huni
  obtain ⟨-, hstreams, news, hheard, hobserved⟩ := hgoes
  constructor
  · exact hself.trans h.initiator
  · intro kind
    rw [hstreams, hqueues, hrouted]
    exact h.refunded kind
  · rw [hrouted, hobserved, hheard, ← List.append_assoc, h.observed, List.append_assoc]

theorem Accepting.works (h : Accepting side before c) {bytes : ℕ} (hworks : Works bytes c c') : Accepting side before c' :=
  h.goes hworks.goes hworks.initiator hworks.routed hworks.acceptBidi hworks.acceptUni

theorem queueOf_routeOne (c : Core (Metered κ)) (changed : Changed) (observed : Observed) (kind : Directionality) :
    (queueOf (c.routeOne changed observed).2 kind).length =
      (queueOf c kind).length + openings c.initiator kind [observed] := by
  cases observed with
  | opened stream =>
    obtain ⟨hbidi, huni⟩ := recordOpened_queues { c with routed := c.routed ++ [.opened stream] } stream
    have hone : (if peers c.initiator kind stream then [stream] else []).length =
        openings c.initiator kind [.opened stream] := by
      by_cases hpeers : peers c.initiator kind stream = true <;> simp [openings, peerOpened, hpeers]
    cases kind with
    | bidirectional => rw [queueOf, Core.routeOne, hbidi, List.length_append, hone, queueOf]
    | unidirectional => rw [queueOf, Core.routeOne, huni, List.length_append, hone, queueOf]
  | closed stream receiving sending =>
    dsimp only [Core.routeOne]
    split <;> cases kind <;> rfl
  | _ => cases kind <;> rfl

theorem credit_routeOne (c : Core (Metered κ)) (changed : Changed) (observed : Observed) :
    (c.routeOne changed observed).2.conn = c.conn ∧ (c.routeOne changed observed).2.shared = c.shared ∧
      (c.routeOne changed observed).2.initiator = c.initiator ∧
      (c.routeOne changed observed).2.routed = c.routed ++ [observed] := by
  cases observed with
  | opened stream => exact recordOpened_frame { c with routed := c.routed ++ [.opened stream] } stream
  | closed stream receiving sending =>
    dsimp only [Core.routeOne]
    split <;> exact ⟨rfl, rfl, rfl, rfl⟩
  | _ => exact ⟨rfl, rfl, rfl, rfl⟩

theorem credit_routeEach (observed : List Observed) (c : Core (Metered κ)) (changed : Changed) :
    let c' := (c.routeEach changed observed).2
    c'.conn = c.conn ∧ c'.shared = c.shared ∧ c'.initiator = c.initiator ∧ c'.routed = c.routed ++ observed ∧
      ∀ kind, (queueOf c' kind).length = (queueOf c kind).length + openings c.initiator kind observed := by
  induction observed generalizing c changed with
  | nil => simp [Core.routeEach, openings]
  | cons first observed ih =>
    obtain ⟨hconn, hshared, hself, hrouted⟩ := credit_routeOne c changed first
    obtain ⟨hconn', hshared', hself', hrouted', hqueues⟩ :=
      ih (c.routeOne changed first).2 (c.routeOne changed first).1
    refine ⟨hconn'.trans hconn, hshared'.trans hshared, hself'.trans hself, ?_, fun kind => ?_⟩
    · rw [Core.routeEach, hrouted', hrouted, List.append_assoc]
      rfl
    · have hsplit := openings_append c.initiator kind [first] observed
      rw [List.singleton_append] at hsplit
      rw [Core.routeEach, hqueues, queueOf_routeOne, hself, hsplit, Nat.add_assoc]

theorem Accepting.routeObserved (h : Accepting side before c) (changed : Changed) :
    Accepting side before (c.routeObserved changed).2 := by
  obtain ⟨hconn, hshared, hself, hrouted, hqueues⟩ := credit_routeEach c.shared.observed
    { c with shared := { c.shared with observed := [] } } changed
  have hrefunded := h.refunded
  have hobserved := h.observed
  simp only [Core.routeObserved]
  constructor
  · exact hself.trans h.initiator
  · intro kind
    rw [hconn, hqueues, hrouted, openings_append, ← Nat.add_assoc]
    refine congrArg₂ (· + ·) (h.refunded kind) ?_
    rw [← h.initiator]
  · rw [hconn, hshared, hrouted, List.append_nil]
    exact h.observed

theorem Accepting.pump [Transport κ] (h : Accepting side before c) : Accepting side before c.pump.2 :=
  keeps_pump (P := Accepting side before) (fun _ _ hworks h => h.works hworks) (fun _ changed h => h.routeObserved changed) h

end Accepting

section Sections
variable {side : Initiator} {before : List Observed}

theorem accepting_release {c : Core (Metered κ)} (h : Accepting side before c) (stream : StreamId) :
    Accepting side before (c.releaseHandle stream).2 := by
  simp only [Core.releaseHandle]
  split
  · exact h
  · split <;> exact h.goes (.refl _ _) rfl rfl rfl rfl

theorem accepting_hands (made : List Half) (stream : StreamId) (w : World (Metered κ)) :
    (made.foldl (fun w half => w.hand stream half) w).core = w.core := by
  induction made generalizing w with
  | nil => rfl
  | cons half made ih =>
    refine (ih _).trans ?_
    cases half <;> rfl

variable [Driven κ]

theorem refunded_popAccept {c c' : Core (Metered κ)} {bidi : Bool} {stream : StreamId}
    (hpop : popAccept bidi c = (some stream, c')) (kind : Directionality) :
    (extendMaxStreams bidi c').conn.streams kind + (queueOf (extendMaxStreams bidi c') kind).length =
      c.conn.streams kind + (queueOf c kind).length := by
  cases bidi with
  | true =>
    simp only [popAccept, if_true, Prod.mk.injEq] at hpop
    obtain ⟨hhead, rfl⟩ := hpop
    obtain ⟨rest, hqueue⟩ := List.head?_eq_some_iff.mp hhead
    show Function.update c.conn.streams .bidirectional (c.conn.streams .bidirectional + 1) kind + _ = _
    cases kind with
    | bidirectional =>
      simp only [Function.update_self, queueOf, extendMaxStreams, hqueue, List.tail_cons, List.length_cons]
      omega
    | unidirectional => rfl
  | false =>
    simp only [popAccept, Bool.false_eq_true, if_false, Prod.mk.injEq] at hpop
    obtain ⟨hhead, rfl⟩ := hpop
    obtain ⟨rest, hqueue⟩ := List.head?_eq_some_iff.mp hhead
    show Function.update c.conn.streams .unidirectional (c.conn.streams .unidirectional + 1) kind + _ = _
    cases kind with
    | bidirectional => rfl
    | unidirectional =>
      simp only [Function.update_self, queueOf, extendMaxStreams, hqueue, List.tail_cons, List.length_cons]
      omega

theorem accepting_acceptTurn {s : Shared (Metered κ)} (h : Accepting side before s.core) (bidi : Bool) (waker : Waker) :
    Accepting side before (acceptTurn bidi waker s).2.core := by
  simp only [acceptTurn]
  split
  · rename_i stream c hpop
    have hsame : (extendMaxStreams bidi c).initiator = s.core.initiator ∧
        (extendMaxStreams bidi c).routed = s.core.routed ∧ (extendMaxStreams bidi c).shared = s.core.shared ∧
        (extendMaxStreams bidi c).conn.heard = s.core.conn.heard := by
      have hcore : (popAccept bidi s.core).2 = c := by rw [hpop]
      subst hcore
      cases bidi <;> exact ⟨rfl, rfl, rfl, rfl⟩
    obtain ⟨hself, hrouted, hshared, hheard⟩ := hsame
    refine Accepting.works (c := extendMaxStreams bidi c) ⟨hself.trans h.initiator, fun kind => ?_, ?_⟩ (works_produce _)
    · rw [refunded_popAccept hpop, hrouted]
      exact h.refunded kind
    · rw [hrouted, hshared, hheard]
      exact h.observed
  · split <;> exact h

theorem accepting_dataTurn {s : Shared (Metered κ)} (h : Accepting side before s.core) (stream : StreamId) (waker : Waker) :
    Accepting side before (dataTurn stream waker s).2.core := by
  have htouched := h.works (works_touched s.core stream)
  simp only [dataTurn]
  split
  · rename_i chunk rest _
    have htaken : Accepting side before (s.core.modifyState stream fun s => { s with incoming := rest }) :=
      h.goes (.refl _ _) rfl rfl rfl rfl
    exact htaken.works (works_extendCredit _ stream chunk.length)
  · split
    · exact htouched
    · split
      · exact htouched
      · split <;> exact htouched

variable {w : World (Metered κ)}

theorem accepting_pump {α : Type} (h : Accepting side before w.core) (act : Shared (Metered κ) → α × Shared (Metered κ))
    (hact : ∀ s, Accepting side before s.core → Accepting side before (act s).2.core) :
    Accepting side before (w.pump act).2.core :=
  (hact (w.shared.withCore w.core.pump.2) h.pump).works (works_rearm _)

theorem accepting_step (h : Accepting side before w.core) (action : Action) : Accepting side before (w.step action).core := by
  cases action with
  | accept bidi waker =>
    have hpump := accepting_pump h (acceptTurn bidi waker) fun _ hs => accepting_acceptTurn hs bidi waker
    simp only [World.step, World.tell, World.construct]
    split <;> exact hpump
  | openStream bidi waker =>
    have hpump := accepting_pump h (openTurn bidi waker) fun s hs => hs.works (works_openTurn bidi waker s)
    simp only [World.step, World.construct]
    split <;> exact hpump
  | construct index =>
    simp only [World.step, World.constructNext]
    split
    · exact h
    · rw [accepting_hands]
      exact h
    · exact h.goes (.refl _ _) rfl rfl rfl rfl
  | close code reason => exact h.works (works_closeConnection code reason w.core)
  | dropConnection => exact h.works (works_release w.core)
  | retained stream waker =>
    simp only [World.step]
    split
    · exact accepting_pump h (retainedTurn stream waker) fun s hs => hs.works (works_retainedTurn stream waker s)
    · exact h
  | finish stream waker =>
    simp only [World.step]
    split
    · exact accepting_pump h (finishTurn stream waker) fun s hs => hs.works (works_finishTurn stream waker s)
    · exact h
  | send stream chunk waker =>
    simp only [World.step]
    split
    · exact accepting_pump h (sendTurn stream chunk waker) fun s hs => hs.works (works_sendTurn stream chunk waker s)
    · exact h
  | sendData stream data =>
    simp only [World.step]
    split
    · exact h.works (works_sendData stream data w.core)
    · exact h
  | reset stream code =>
    simp only [World.step]
    split
    · exact h.works (works_resetStream stream code w.core)
    · exact h
  | dropSend stream =>
    simp only [World.step]
    split
    · have hdropped : Accepting side before (dropSend stream w.core).2 := by
        simp only [dropSend]
        split
        · exact accepting_release h stream
        · split
          · exact accepting_release (h.works (works_touched _ stream)) stream
          · exact accepting_release ((h.works (works_abandon stream abandoned w.core)).works (works_rearm _)) stream
      exact hdropped
    · exact h
  | data stream waker =>
    simp only [World.step]
    split
    · exact accepting_pump h (dataTurn stream waker) fun _ hs => accepting_dataTurn hs stream waker
    · exact h
  | stopSending stream code =>
    simp only [World.step]
    split
    · exact h.works (works_stopSending stream code w.core)
    · exact h
  | dropRecv stream =>
    simp only [World.step]
    split
    · exact accepting_release h stream
    · exact h
  | deliver index =>
    simp only [World.step]
    split <;> exact h
  | timer =>
    simp only [World.step]
    split
    · split <;> exact h
    · exact h
  | arrive datagram =>
    refine h.works (.of_goes (.of_observed ?_))
    rw [ConnectionShared.deliverInbound]
    split <;> rfl
  | takeOutbound =>
    refine h.works (.of_goes (.of_observed ?_))
    rw [ConnectionShared.takeOutbound]
    split <;> rfl
  | advance nanos => exact h.goes (.refl _ _) rfl rfl rfl rfl

theorem accepting_reached (h : Accepting side before w.core) (actions : List Action) :
    Accepting side before (w.reached actions).core := by
  induction actions generalizing w with
  | nil => exact h
  | cons action actions ih => exact ih (accepting_step h action)

end Sections

end Core

/-! ## Both joins -/

/-- The peer opens a stream, and then another one. -/
def opening : Metered QuicHyperium.PlannedConnection where
  conn := { script := { reads := [(.ok .processed, [.observe (.opened ⟨0, zero_le_maxVarint⟩)]),
    (.ok .processed, [.observe (.opened ⟨4, four_le_maxVarint⟩)])] } }

end Ngnet.QuicStreamCredit
