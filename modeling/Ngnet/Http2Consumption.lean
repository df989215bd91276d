import Ngnet.BoundedShares
import Ngnet.Http2Discipline

/-!
# What an HTTP/2 connection reports consumed

Octets that the session delivered wait among the events, in the queue of a body, in the hands of a body that has taken
them or is dropped, among the credits, and in the hands of the driver, before they are reported. Some are lost on the way, when a
stream is refused; none are reported twice, or while somebody may still read them.
-/

namespace Ngnet.Http2Consumption
open QmuxVarints Http2Heads Http2Handles Http2Driver Http2Passes Http2Discipline InterleavedPrograms OperationTraces
open BoundedShares
open Http3Heads (Http)

variable {α δ τ η : Type}

/-! ## Where octets wait -/

/-- The octets in entries by stream. -/
def total (entries : List (ℕ × ℕ)) : ℕ := (entries.map Prod.snd).sum

/-- What a call reports consumed. -/
def reportedBy : Called → ℕ
  | .consumed _ len => len
  | _ => 0

def reported (calls : List Called) : ℕ := (calls.map reportedBy).sum

/-- What a body has taken out of its queue and not credited. -/
def inHand : BodyPhase → ℕ
  | .crediting len | .dropCrediting _ len => len
  | _ => 0

def weight (e : Exchange) : ℕ := e.incoming.queued + (e.body.map fun body => inHand body.phase).getD 0

/-- The octets that are queued are those of the chunks. -/
def Counted (e : Exchange) : Prop := e.incoming.queued = (e.incoming.chunks.map List.length).sum

/-- What the driver holds, and what it has reported. -/
def held (d : DriverState δ τ η) : ℕ :=
  total (DriverState.dataOf d.events) + total d.credited + (d.unreturned.map Prod.snd).getD 0 + reported d.calls

/-- The exchanges and the credits fit, beside so much, into a whole. -/
structure Covered (c : Common) (aside whole : ℕ) : Prop where
  counted : ∀ id, Counted (c.exchanges id)
  within : Within (weight ∘ c.exchanges) (total c.inner.credits + aside) whole

def Ledger (w : World δ τ η) : Prop := Covered w.common (held w.driver) (total w.driver.delivered)

theorem total_append (entries more : List (ℕ × ℕ)) : total (entries ++ more) = total entries + total more := by
  simp [total]

theorem reported_append (calls more : List Called) : reported (calls ++ more) = reported calls + reported more := by
  simp [reported]

theorem total_addTo (stream len : ℕ) (entries : List (ℕ × ℕ)) : total (addTo stream len entries) = total entries + len := by
  induction entries with
  | nil => simp [addTo, total]
  | cons entry entries ih =>
    obtain ⟨other, octets⟩ := entry
    rw [addTo]
    split
    · simp only [total, List.map_cons, List.sum_cons]
      omega
    · simp only [total, List.map_cons, List.sum_cons] at ih ⊢
      omega

theorem total_credit (inner : Inner) (stream len : ℕ) :
    total (inner.credit stream len).credits = total inner.credits + len := by
  rw [Inner.credit]
  split
  · rename_i hlen
    rw [hlen, Nat.add_zero]
  · exact total_addTo stream len inner.credits

theorem credits_reset (inner : Inner) (stream code : ℕ) : (inner.reset stream code).credits = inner.credits := by
  rw [Inner.reset]
  split <;> rfl

theorem credits_markReady (inner : Inner) (stream : ℕ) : (inner.markReady stream).credits = inner.credits := by
  rw [Inner.markReady]
  split <;> rfl

/-! ## Changes -/

section Covered
variable {c c' : Common} {aside aside' whole whole' : ℕ}

theorem Covered.keep (h : Covered c aside whole) (hexchanges : c'.exchanges = c.exchanges)
    (hmoved : total c'.inner.credits + aside' + whole ≤ total c.inner.credits + aside + whole') :
    Covered c' aside' whole' where
  counted := hexchanges ▸ h.counted
  within := hexchanges ▸ h.within.move hmoved

theorem Covered.exchange (h : Covered c aside whole) (id : ℕ) {e : Exchange}
    (hexchanges : c'.exchanges = Function.update c.exchanges id e)
    (hcounted : Counted (c.exchanges id) → Counted e)
    (hmoved : Counted (c.exchanges id) → weight e + (total c'.inner.credits + aside') + whole ≤
      weight (c.exchanges id) + (total c.inner.credits + aside) + whole') : Covered c' aside' whole' := by
  constructor
  · intro other
    rw [hexchanges]
    by_cases heq : other = id
    · rw [heq, Function.update_self]
      exact hcounted (h.counted id)
    · rw [Function.update_of_ne heq]
      exact h.counted other
  · rw [hexchanges, Function.comp_update]
    exact h.within.update id (hmoved (h.counted id))

theorem Covered.modify (h : Covered c aside whole) (id : ℕ) {f : Exchange → Exchange}
    (hf : ∀ e, Counted e → Counted (f e) ∧ weight (f e) ≤ weight e) : Covered (c.modifyExchange id f) aside whole := by
  apply h.exchange id rfl
  · exact fun hcounted => (hf _ hcounted).1
  · intro hcounted
    have hle := (hf _ hcounted).2
    show _ + (total c.inner.credits + aside) + whole ≤ _
    omega

theorem Covered.modifySlot (h : Covered c aside whole) (id : ℕ) (f : Slot → Slot) :
    Covered (c.modifySlot id f) aside whole :=
  h.modify id fun _ hcounted => ⟨hcounted, Nat.le_refl _⟩

theorem Covered.setFuture (h : Covered c aside whole) (id : ℕ) (future : FuturePhase) :
    Covered (c.setFuture id future) aside whole :=
  h.modify id fun _ hcounted => ⟨hcounted, Nat.le_refl _⟩

theorem Covered.setBody (h : Covered c aside whole) (id : ℕ) {body : IncomingBody} (hbody : inHand body.phase = 0) :
    Covered (c.setBody id body) aside whole := by
  apply h.modify id
  intro e hcounted
  refine ⟨hcounted, ?_⟩
  simp only [weight, Option.map_some, Option.getD_some, hbody]
  exact Nat.add_le_add_left (Nat.zero_le _) _

theorem Covered.modifyIncoming (h : Covered c aside whole) (id : ℕ) {f : Incoming → Incoming}
    (hchunks : ∀ incoming, (f incoming).chunks = incoming.chunks)
    (hqueued : ∀ incoming, (f incoming).queued = incoming.queued) : Covered (c.modifyIncoming id f) aside whole := by
  apply h.modify id
  intro e hcounted
  constructor
  · rwa [Counted, hchunks, hqueued]
  · simp only [weight, hqueued]
    exact Nat.le_refl _

theorem queued_fail (incoming : Incoming) (error : Error) :
    (incoming.fail error).chunks = incoming.chunks ∧ (incoming.fail error).queued = incoming.queued := by
  rw [Incoming.fail]
  split <;> exact ⟨rfl, rfl⟩

theorem Covered.fail (h : Covered c aside whole) (id : ℕ) (error : Error) :
    Covered (c.modifyIncoming id (·.fail error)) aside whole :=
  h.modifyIncoming id (fun incoming => (queued_fail incoming error).1) fun incoming => (queued_fail incoming error).2

theorem Covered.made (h : Covered c aside whole) (id : ℕ) {e : Exchange}
    (hexchanges : c'.exchanges = Function.update c.exchanges id e) (hcredits : c'.inner.credits = c.inner.credits)
    (hcounted : Counted e) (hweight : weight e = 0) : Covered c' aside whole := by
  apply h.exchange id hexchanges (fun _ => hcounted)
  intro _
  rw [hweight, hcredits]
  omega

/-! ## Handles, futures and bodies -/

theorem covered_stepFuture (h : Covered c aside whole) (id : ℕ) : Covered (c.stepFuture id) aside whole := by
  rw [Common.stepFuture]
  split
  · exact h.setFuture id _
  · exact h.setFuture id _
  · exact (h.modifySlot id _).setFuture id _
  · split
    · apply Covered.setFuture
      exact h.keep rfl (Nat.le_refl _)
    · exact h
  · exact h.setFuture id _
  · apply Covered.setFuture
    exact h.keep rfl (Nat.le_refl _)
  · exact (h.modifySlot _ _).setFuture id _
  · exact h.setFuture id _
  · exact (h.modifySlot id _).setFuture id _
  · apply Covered.setFuture
    refine h.keep rfl ?_
    rw [Common.modifyInner, credits_reset]
  all_goals exact h

theorem covered_pollFuture (h : Covered c aside whole) (id : ℕ) : Covered (c.pollFuture id) aside whole := by
  rw [Common.pollFuture]
  split
  · split
    · exact h
    · exact (h.modifySlot id _).setFuture id _
    · apply Covered.setFuture
      apply (h.modifySlot id _).modify id
      intro e hcounted
      refine ⟨hcounted, Nat.add_le_add_left ?_ _⟩
      cases e.body with
      | none => exact Nat.le_refl _
      | some body => exact Nat.zero_le _
  · exact h

theorem covered_dropFuture (h : Covered c aside whole) (id : ℕ) : Covered (c.dropFuture id) aside whole := by
  rw [Common.dropFuture]
  split
  · exact h.setFuture id _
  · exact h.setFuture id _
  · exact h

theorem take_moves {incoming : Incoming} (h : incoming.queued = (incoming.chunks.map List.length).sum) :
    (incoming.take.2).queued = ((incoming.take.2).chunks.map List.length).sum ∧
      incoming.take.2.queued + inHand (Common.phaseAfter incoming.take.1) = incoming.queued := by
  rw [Incoming.take]
  split
  · rename_i chunk chunks hchunks
    rw [hchunks, List.map_cons, List.sum_cons] at h
    constructor
    · show incoming.queued - chunk.length = (chunks.map List.length).sum
      omega
    · show incoming.queued - chunk.length + inHand (if chunk.length = 0 then _ else _) = _
      split
      · show incoming.queued - chunk.length + 0 = _
        omega
      · show incoming.queued - chunk.length + chunk.length = _
        omega
  · exact ⟨h, rfl⟩
  · exact ⟨h, rfl⟩
  · refine ⟨h, ?_⟩
    show incoming.queued + inHand (Common.phaseAfter (if incoming.finished = true then _ else _)) = _
    split <;> rfl

theorem setBody_modifyIncoming (c : Common) (id : ℕ) (incoming : Incoming) (body : IncomingBody) :
    ((c.modifyIncoming id fun _ => incoming).setBody id body).exchanges =
      Function.update c.exchanges id { c.exchanges id with incoming, body := some body } := by
  simp only [Common.modifyIncoming, Common.setBody, Common.modifyExchange, Function.update_self, Function.update_idem]

theorem covered_pollBody (h : Covered c aside whole) (id : ℕ) : Covered (c.pollBody id) aside whole := by
  rw [Common.pollBody]
  split
  · rename_i body hbody
    split
    · rename_i hphase
      apply h.exchange id (setBody_modifyIncoming ..)
      · exact fun hcounted => (take_moves hcounted).1
      · intro hcounted
        have hmoves := (take_moves hcounted).2
        have hweight : weight (c.exchanges id) = (c.exchanges id).incoming.queued := by
          simp only [weight, hbody, hphase, Option.map_some, Option.getD_some, inHand, Nat.add_zero]
        show (c.exchanges id).incoming.take.2.queued + inHand (Common.phaseAfter (c.exchanges id).incoming.take.1) +
          (total c.inner.credits + aside) + whole ≤ _
        omega
    · exact h
  · exact h

theorem Covered.abandon (h : Covered c aside whole) (id : ℕ) :
    Covered (c.modifyIncoming id (·.abandon.2)) (aside + (c.exchanges id).incoming.queued) whole := by
  apply h.exchange id rfl
  · exact fun _ => rfl
  · intro _
    simp only [weight]
    show 0 + _ + (total c.inner.credits + _) + whole ≤ _
    omega

theorem covered_dropAbandoning (h : Covered c aside whole) {id : ℕ} {body : IncomingBody} {phase : BodyPhase}
    (hphase : inHand phase ≤ (c.exchanges id).incoming.queued) :
    Covered ((c.modifyIncoming id fun _ => (c.exchanges id).incoming.abandon.2).setBody id { body with phase }) aside
      whole := by
  apply h.exchange id (setBody_modifyIncoming ..)
  · exact fun _ => rfl
  · intro _
    show 0 + inHand phase + (total c.inner.credits + aside) + whole ≤ weight (c.exchanges id) + _ + whole
    have hle : (c.exchanges id).incoming.queued ≤ weight (c.exchanges id) := Nat.le_add_right _ _
    omega

theorem covered_crediting (h : Covered c aside whole) {id len : ℕ} {body body' : IncomingBody}
    (hbody : (c.exchanges id).body = some body) (hlen : inHand body.phase = len) (hphase : inHand body'.phase = 0) :
    Covered ((c.modifyInner (·.credit body.stream len)).setBody id body') aside whole := by
  apply h.exchange id rfl
  · exact fun hcounted => hcounted
  · intro _
    have hcredit := total_credit c.inner body.stream len
    simp only [weight, hbody, Option.map_some, Option.getD_some, hphase, hlen]
    show _ + 0 + (total (c.inner.credit body.stream len).credits + aside) + whole ≤ _
    show (c.exchanges id).incoming.queued + _ + _ + _ ≤ _
    omega

theorem inHand_afterCredit (body : IncomingBody) (complete : Bool) : inHand (Common.afterCredit body complete) = 0 := by
  rw [Common.afterCredit]
  split <;> rfl

theorem covered_stepBody (h : Covered c aside whole) (id : ℕ) : Covered (c.stepBody id) aside whole := by
  rw [Common.stepBody]
  split
  · exact h
  rename_i body hbody
  cases hphase : body.phase with
  | inSlot | held | gone => exact h
  | crediting len => exact covered_crediting h hbody (by rw [hphase, inHand]) rfl
  | dropChecking => exact h.setBody id rfl
  | dropAbandoning complete =>
    apply covered_dropAbandoning h
    split
    · rw [inHand_afterCredit]
      exact Nat.zero_le _
    · exact Nat.le_refl _
  | dropCrediting complete unread => exact covered_crediting h hbody (by rw [hphase, inHand]) (inHand_afterCredit body complete)
  | dropResetting =>
    apply Covered.setBody _ id rfl
    refine h.keep rfl ?_
    rw [Common.modifyInner, credits_reset]

theorem covered_dropBody (h : Covered c aside whole) (id : ℕ) : Covered (c.dropBody id) aside whole := by
  rw [Common.dropBody]
  split
  · split
    · exact h.setBody id rfl
    · exact h
  · exact h

theorem covered_act (h : Covered c aside whole) (action : Common.Action) : Covered (c.act action) aside whole := by
  have hsame {c' : Common} (hexchanges : c'.exchanges = c.exchanges) (hcredits : c'.inner.credits = c.inner.credits) :
      Covered c' aside whole := h.keep hexchanges (by rw [hcredits])
  cases action with
  | sendRequest request =>
    rw [Common.act, Common.sendRequest]
    split
    · exact h
    · exact h.made c.created rfl rfl rfl rfl
  | stepFuture id => exact covered_stepFuture h id
  | pollFuture id => exact covered_pollFuture h id
  | dropFuture id => exact covered_dropFuture h id
  | pollBody id => exact covered_pollBody h id
  | stepBody id => exact covered_stepBody h id
  | dropBody id => exact covered_dropBody h id
  | drain => exact hsame rfl rfl
  | cloneHandle | dropHandle | shutdown =>
    rw [Common.act]
    split
    · exact h
    · exact hsame rfl rfl

end Covered

/-! ## The driver -/

/-- The driver comes to hold, or to have reported, no more than so much beside what was delivered to it. -/
def Spends (len : ℕ) (d d' : DriverState δ τ η) : Prop :=
  held d' + total d.delivered ≤ held d + len + total d'.delivered

section Driver
variable {w : World δ τ η} {d d' d'' : DriverState δ τ η} {len len' : ℕ}

theorem Spends.of_held (hheld : held d' ≤ held d + len) (hdelivered : d'.delivered = d.delivered) : Spends len d d' := by
  rw [Spends, hdelivered]
  omega

theorem Spends.trans (h : Spends len d d') (h' : Spends len' d' d'') : Spends (len + len') d d'' := by
  simp only [Spends] at h h' ⊢
  omega

theorem Covered.spend {c : Common} (h : Covered c (held d + len) (total d.delivered)) (hspends : Spends len d d') :
    Covered c (held d') (total d'.delivered) := by
  apply h.keep rfl
  simp only [Spends] at hspends
  omega

theorem Ledger.drive (h : Ledger w) (hspends : Spends 0 w.driver d) : Ledger { w with driver := d } := by
  have haside : Covered w.common (held w.driver + 0) (total w.driver.delivered) := h
  exact haside.spend hspends

theorem Ledger.inner (h : Ledger w) {f : Inner → Inner} (hf : ∀ inner, (f inner).credits = inner.credits) :
    Ledger (w.onCommon (·.modifyInner f)) := by
  refine Covered.keep h rfl ?_
  show total (f w.common.inner).credits + held w.driver + total w.driver.delivered ≤ _
  rw [hf]
  exact Nat.le_refl _

theorem Ledger.onIncoming (h : Ledger w) (stream : ℕ) {f : Incoming → Incoming}
    (hf : ∀ incoming, (f incoming).chunks = incoming.chunks ∧ (f incoming).queued = incoming.queued) :
    Ledger (w.onIncoming stream f) := by
  rw [World.onIncoming]
  split
  · exact Covered.modifyIncoming h _ (fun incoming => (hf incoming).1) fun incoming => (hf incoming).2
  · exact h

theorem Ledger.onSlot (h : Ledger w) (stream : ℕ) (f : Slot → Slot) : Ledger (w.onSlot stream f) := by
  rw [World.onSlot]
  split
  · exact Covered.modifySlot h _ f
  · exact h

theorem covered_abandonStream (h : Ledger w) (stream : ℕ) :
    Covered (w.onIncoming stream (·.abandon.2)).common (held w.driver + (w.incomingOf stream).queued)
      (total w.driver.delivered) := by
  rw [World.onIncoming, World.incomingOf]
  split
  · exact Covered.abandon h _
  · exact h

theorem driver_onIncoming (w : World δ τ η) (stream : ℕ) (f : Incoming → Incoming) :
    (w.onIncoming stream f).driver = w.driver := by
  rw [World.onIncoming]
  split <;> rfl

theorem spends_observe (events : List Event) (d : DriverState δ τ η) : Spends 0 d (d.observe events) := by
  simp only [Spends, held, DriverState.observe, DriverState.dataOf, List.filterMap_append, total_append]
  omega

theorem spends_taken {stream : ℕ} {data : Bytes} {events : List Event} (h : d.events = .data stream data :: events) :
    held { d with events } + data.length = held d := by
  simp only [held, h, DriverState.dataOf, List.filterMap_cons, total, List.map_cons, List.sum_cons]
  omega

theorem ledger_completeSlot (h : Ledger w) (stream : ℕ) (head : Http3Heads.ResponseParts) :
    Ledger (w.completeSlot stream head).2 := by
  rw [World.completeSlot]
  split
  · exact h
  · split
    · exact h
    · exact (Covered.modifySlot h _ _).setBody _ rfl

theorem ledger_abandonFresh (h : Ledger w) (stream : ℕ) :
    Ledger ((w.onIncoming stream (·.abandon.2)).onDriver
      ({ · with unreturned := some (stream, (w.incomingOf stream).queued) })) := by
  simp only [Ledger, World.onDriver, driver_onIncoming]
  apply (covered_abandonStream h stream).spend
  refine Spends.of_held ?_ rfl
  simp only [held, Option.map_some, Option.getD_some]
  omega

theorem ledger_startHandler [Handlers η] (h : Ledger w) (stream : ℕ) (head : Http3Heads.RequestParts) :
    Ledger (w.startHandler stream head) := by
  rw [World.startHandler]
  split
  · rename_i entry _
    have hheld : Covered (w.common.setBody entry.incoming ⟨stream, .request, .held⟩) (held w.driver)
        (total w.driver.delivered) := Covered.setBody h _ rfl
    exact hheld
  · exact h

theorem ledger_pollHandler [Handlers η] (h : Ledger w) (stream : ℕ) : Ledger (w.pollHandler stream).2 := by
  rw [World.pollHandler]
  split
  · split <;> exact h
  · exact h

theorem ledger_enterIncoming (h : Ledger w) (stream : ℕ) : Ledger (w.enterIncoming stream) := by
  rw [World.enterIncoming]
  split
  · exact h
  · exact Covered.made h w.common.created rfl rfl rfl rfl

theorem Ledger.onCurrent (h : Ledger w) (f : Slot → Slot) : Ledger (w.onCurrent f) := by
  rw [World.onCurrent]
  split
  · exact Covered.modifySlot h _ f
  · exact h

theorem ledger_enter (h : Ledger w) (stream : ℕ) : Ledger (w.enter stream).2 := by
  rw [World.enter]
  split
  · exact h
  · rename_i request id _
    have hbound : Covered (w.common.modifySlot id fun _ => ((w.common.exchanges id).slot.bind stream).2) (held w.driver)
        (total w.driver.delivered) := Covered.modifySlot h id _
    exact hbound

theorem ledger_failHand (h : Ledger w) (error : Error) : Ledger (w.failHand error) := by
  rw [World.failHand]
  split
  · exact h
  · rename_i command hand _
    have hfailed : Covered (w.common.modifySlot command.exchange (·.fail error)) (held w.driver)
        (total w.driver.delivered) := Covered.modifySlot h _ _
    exact hfailed

theorem Ledger.onLeaving (h : Ledger w) {f : Entry → Common → Common}
    (hf : ∀ entry, Covered (f entry w.common) (held w.driver) (total w.driver.delivered)) : Ledger (w.onLeaving f) := by
  rw [World.onLeaving]
  split
  · exact hf _
  · exact h

theorem ledger_nextEvent (h : Ledger w) : Ledger (w.onDriver fun d => { d with
    events := match d.events with
      | .data stream data :: events => .data stream data :: events
      | events => events.tail }) := by
  apply h.drive
  refine Spends.of_held ?_ rfl
  simp only [held]
  cases w.driver.events with
  | nil => exact Nat.le_refl _
  | cons event events =>
    cases event with
    | data => exact Nat.le_refl _
    | _ => exact Nat.le_refl _

section Session
variable [Session δ]

theorem spends_call {call : SessionCall α} (hcall : ∀ answer, reported (logged call answer) = 0) (d : DriverState δ τ η) :
    Spends 0 d (d.call call).2 := by
  refine Spends.of_held ?_ rfl
  simp only [held, DriverState.call, reported_append, hcall]
  exact Nat.le_refl _

theorem spends_consume (stream len : ℕ) (d : DriverState δ τ η) : Spends len d (d.consume stream len).2 := by
  rw [DriverState.consume]
  split
  · exact Spends.of_held (Nat.le_add_right _ _) rfl
  · refine Spends.of_held ?_ rfl
    have hlogged : ∀ answer, reported (logged (.consume stream len) answer) = len := fun _ => Nat.add_zero len
    simp only [held, DriverState.call, reported_append, hlogged]
    omega

theorem spends_feed (d : DriverState δ τ η) : Spends 0 d d.feed.2 := by
  rw [DriverState.feed]
  split
  · exact Spends.of_held (Nat.le_refl _) rfl
  · rename_i buffer inbox _
    have hleft : Spends 0 d { d with inbox } := Spends.of_held (Nat.le_refl _) rfl
    have hfed : Spends 0 d (DriverState.call (.recv buffer) { d with inbox }).2 :=
      hleft.trans (spends_call (fun _ => rfl) _)
    exact hfed.trans (spends_observe _ _)

theorem spends_send (d : DriverState δ τ η) : Spends 0 d d.send.2 := by
  have hsent : Spends 0 d (d.call .send).2 := spends_call (fun _ => rfl) d
  have hobserved := hsent.trans (spends_observe (d.call .send).1.events _)
  exact hobserved.trans (Spends.of_held (Nat.le_add_right _ 0) rfl)

theorem spends_consumeNext (d : DriverState δ τ η) : Spends 0 d d.consumeNext.2 := by
  rw [DriverState.consumeNext]
  split
  · exact Spends.of_held (Nat.le_refl _) rfl
  · rename_i stream len credited hcredited
    have hconsumed := spends_consume stream len { d with credited }
    have hleft : held { d with credited } + len = held d := by
      simp only [held, hcredited, total, List.map_cons, List.sum_cons]
      omega
    simp only [Spends] at hconsumed ⊢
    omega

theorem spends_sweepNext (d : DriverState δ τ η) : Spends 0 d d.sweepNext.2 := by
  rw [DriverState.sweepNext]
  split
  · exact Spends.of_held (Nat.le_refl _) rfl
  rename_i stream code toReset _
  have hleft : Spends 0 d { d with toReset } := Spends.of_held (Nat.le_refl _) rfl
  have hasked : Spends 0 d (DriverState.call (.streamIsOpen stream) { d with toReset }).2 :=
    hleft.trans (spends_call (fun _ => rfl) _)
  dsimp only
  split
  · exact hasked.trans (spends_call (fun _ => rfl) _)
  · exact hasked

theorem ledger_deliverData (h : Ledger w) : Ledger w.deliverData.2 := by
  rw [World.deliverData]
  split
  · rename_i stream data events hevents
    have htaken := spends_taken hevents
    have haside : Covered w.common (held { w.driver with events } + data.length) (total w.driver.delivered) := by
      rw [htaken]
      exact h
    have hdropped : Spends data.length { w.driver with events } { w.driver with events } :=
      Spends.of_held (Nat.le_add_right _ _) rfl
    dsimp only
    split
    · split
      · exact haside.spend hdropped
      · exact haside.spend (spends_consume stream data.length _)
    · rename_i entry _
      have hpushed : Covered (w.common.modifyIncoming entry.incoming fun _ =>
          ((w.common.exchanges entry.incoming).incoming.push data).2)
          (held { w.driver with events } + ((w.common.exchanges entry.incoming).incoming.push data).1)
          (total w.driver.delivered) := by
        rw [Incoming.push]
        split
        · exact haside.exchange entry.incoming rfl (fun hcounted => hcounted) fun _ => Nat.le_refl _
        · apply haside.exchange entry.incoming rfl
          · intro hcounted
            simp only [Counted, List.map_append, List.sum_append] at hcounted ⊢
            simpa using hcounted
          · intro _
            simp only [weight]
            show _ + (total w.common.inner.credits + _) + _ ≤ _
            omega
      split
      · exact hpushed.spend (Spends.of_held (Nat.le_add_right _ _) rfl)
      · exact hpushed.spend (spends_consume stream _ _)
  · exact h

theorem ledger_refuseStream (h : Ledger w) (stream code : ℕ) (reporting : Bool) :
    Ledger (w.refuseStream stream code reporting).2 := by
  have hreset : Covered ((w.onIncoming stream (·.abandon.2)).locally (·.call (.resetStream stream code))).2.common
      (held ((w.onIncoming stream (·.abandon.2)).locally (·.call (.resetStream stream code))).2.driver +
        (w.incomingOf stream).queued)
      (total ((w.onIncoming stream (·.abandon.2)).locally (·.call (.resetStream stream code))).2.driver.delivered) := by
    have hcalled : Spends 0 w.driver (w.driver.call (.resetStream stream code)).2 := spends_call (fun _ => rfl) w.driver
    simp only [World.locally, driver_onIncoming]
    apply (covered_abandonStream h stream).keep rfl
    simp only [Spends] at hcalled
    omega
  rw [World.refuseStream]
  generalize (w.onIncoming stream (·.abandon.2)).locally (·.call (.resetStream stream code)) = answer at hreset
  obtain ⟨⟨⟩ | ⟨⟩, w'⟩ := answer
  · exact hreset.spend (Spends.of_held (Nat.le_add_right _ _) rfl)
  · dsimp only
    split
    · exact hreset.spend (spends_consume stream _ _)
    · exact hreset.spend (Spends.of_held (Nat.le_add_right _ _) rfl)

theorem ledger_creditFresh [Transport τ] [Handlers η] (h : Ledger w) : Ledger (World.applyOp .creditFresh w).2 := by
  rw [World.applyOp]
  split
  · rename_i stream len hunreturned
    refine Covered.keep h rfl ?_
    have hcredit := total_credit w.common.inner stream len
    show total (w.common.inner.credit stream len).credits + held { w.driver with unreturned := none } + _ ≤
      _ + _ + total w.driver.delivered
    simp only [held, hunreturned, Option.map_some, Option.map_none, Option.getD_some, Option.getD_none]
    omega
  · exact h

theorem ledger_applyOp [Transport τ] [Handlers η] (h : Ledger w) {op : Op α} {k : Desk} (hallows : k.allows op) :
    Ledger (World.applyOp op w).2 := by
  cases op with
  | session call =>
    cases call with
    | consume => exact False.elim hallows
    | submitRequest headers body =>
      refine h.drive (spends_call (fun answer => ?_) w.driver)
      cases answer <;> rfl
    | _ => exact h.drive (spends_call (fun _ => rfl) w.driver)
  | feed => exact h.drive (spends_feed w.driver)
  | send => exact (h.drive (spends_send w.driver)).inner fun _ => rfl
  | consumeNext => exact h.drive (spends_consumeNext w.driver)
  | sweepNext => exact h.drive (spends_sweepNext w.driver)
  | takeCredits =>
    refine Covered.keep h rfl ?_
    show 0 + held { w.driver with credited := w.common.inner.credits } + _ ≤ _ + _ + total w.driver.delivered
    simp only [held]
    omega
  | takeResets | takeShutdown | takeReady | takeTrailers | setRefusing | setGone | drainQueue =>
    exact Covered.keep h rfl (Nat.le_refl _)
  | reset stream code => exact h.inner fun inner => credits_reset inner stream code
  | nextEvent => exact ledger_nextEvent h
  | deliverData => exact ledger_deliverData h
  | enterIncoming stream => exact ledger_enterIncoming h stream
  | completeSlot stream head => exact ledger_completeSlot h stream head
  | failSlot stream error => exact h.onSlot stream _
  | failIncoming stream error => exact h.onIncoming stream fun incoming => queued_fail incoming error
  | setTrailers stream fields => exact h.onIncoming stream fun _ => ⟨rfl, rfl⟩
  | finishIncoming stream => exact h.onIncoming stream fun _ => ⟨rfl, rfl⟩
  | refuseStream stream code reporting => exact ledger_refuseStream h stream code reporting
  | abandonFresh stream => exact ledger_abandonFresh h stream
  | creditFresh => exact ledger_creditFresh h
  | removeEntry stream =>
    rw [World.applyOp]
    split
    · exact h
    · exact h
  | failLeavingSlot error =>
    apply h.onLeaving
    intro entry
    unfold World.failSlots
    split
    · exact Covered.modifySlot h _ _
    · exact h
  | failLeavingIncoming error => exact h.onLeaving fun entry => Covered.fail h entry.incoming error
  | nothingLeft role =>
    rw [World.applyOp, World.nothingLeft]
    split
    · exact h.drive (spends_call (fun _ => rfl) w.driver)
    · exact h
  | nextCommand =>
    rw [World.applyOp, World.nextCommand]
    split
    · exact h
    · split <;> exact h
  | refuse error => exact h.onCurrent _
  | enter stream => exact ledger_enter h stream
  | failHand error => exact ledger_failHand h error
  | startHandler stream head => exact ledger_startHandler h stream head
  | pollHandler stream => exact ledger_pollHandler h stream
  | _ => exact h

end Session

theorem ledger_act (h : Ledger w) (action : WorldAction) : Ledger (World.act action w) := by
  cases action with
  | handle action => exact covered_act h action
  | freeSlot id =>
    rw [World.act, World.freeSlot]
    split
    · split
      · exact Covered.setBody h id rfl
      · exact h
    · exact h
  | markReady stream =>
    rw [World.act, World.markReady]
    split
    · exact h.inner fun inner => credits_markReady inner stream
    · exact h
  | wakeHandler stream =>
    rw [World.act, World.wakeHandler]
    split <;> exact h
  | post buffer =>
    rw [World.act, World.post]
    split <;> exact h
  | endReading | failReading =>
    rw [World.act, World.endReading]
    split <;> exact h

end Driver

/-! ## Runs -/

section Runs
variable {fuel : ℕ} {session : δ} {io : τ} {handlers : η} {choices : List (Choice WorldAction)}

theorem ledger_newWorld (role : Role) : Ledger (newWorld role session io handlers) where
  counted _ := rfl
  within := within_zero 0

variable [Session δ] [Transport τ] [Handlers η] [Http]

variable (fuel session io handlers choices) in
theorem ledger_reached (role : Role) : Adheres desk (fun w _ => Ledger w) Desk.Working (Desk.Finished role)
    (fun _ _ => True) ((connection role fuel).reached (newWorld role session io handlers) choices) := by
  have hcareful : (connection role fuel).Careful (newWorld role session io handlers) (fun _ _ => True) (fun _ _ => True)
      choices := careful_of_forall (fun _ _ => True.intro) fun _ _ => True.intro
  refine adheres_reached (discipline role fuel) ?_ ?_ (k := {}) (ledger_newWorld role)
    ⟨⟨rfl, rfl, rfl⟩, rfl, rfl, rfl, rfl⟩ hcareful
  · exact fun op w k h _ hallows => ⟨True.intro, ledger_applyOp h hallows⟩
  · exact fun action w k h _ => ledger_act h action

theorem reported_within_delivered (role : Role) (ids : Finset ℕ) :
    reported ((connection role fuel).reached (newWorld role session io handlers) choices).state.driver.calls +
        total ((connection role fuel).reached (newWorld role session io handlers) choices).state.common.inner.credits +
        ∑ id ∈ ids, (((connection role fuel).reached (newWorld role session io handlers) choices).state.common.exchanges
          id).incoming.queued ≤
      total ((connection role fuel).reached (newWorld role session io handlers) choices).state.driver.delivered := by
  obtain ⟨k, hledger, -⟩ := ledger_reached fuel session io handlers choices role
  generalize ((connection role fuel).reached (newWorld role session io handlers) choices).state = w at hledger ⊢
  have hwithin := hledger.within ids
  have hqueued : ∑ id ∈ ids, (w.common.exchanges id).incoming.queued ≤ ∑ id ∈ ids, (weight ∘ w.common.exchanges) id :=
    Finset.sum_le_sum fun id _ => Nat.le_add_right _ _
  simp only [held] at hwithin
  omega

end Runs

end Ngnet.Http2Consumption
