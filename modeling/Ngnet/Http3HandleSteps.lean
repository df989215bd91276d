import Mathlib.Tactic.Common
import Mathlib.Tactic.SplitIfs
import Ngnet.Http3Handles

/-!
# What the handles of an HTTP/3 connection can do

`Acts c action c'` says once what each atomic step of a handle, a future or a body can do to the
shared state: it makes an exchange, it pushes a command, or it moves one exchange and possibly gives
credit back. Every invariant of a connection is checked against these cases.
-/

namespace Ngnet.Http3HandleSteps
open QmuxVarints QmuxStreams Http3Heads Http3Handles

/-! ## Steps of one exchange -/

/-- Steps of a call on a future that touch nothing but the call. -/
inductive FutureMove : FuturePhase → FuturePhase → Prop
  | notGone : FutureMove .checkingGone .checkingRefusing
  | isGone : FutureMove .checkingGone (.failing Common.connectionGone)
  | notRefusing : FutureMove .checkingRefusing .pushing
  | isRefusing : FutureMove .checkingRefusing (.failing Common.peerWentAway)
  | woke : FutureMove .waking .pending
  | unbound : FutureMove .dropStream .gone
  | bound (stream : StreamId) : FutureMove .dropStream (.dropReset stream)
  | reset (stream : StreamId) : FutureMove (.dropReset stream) .dropWaking
  | dropWoke : FutureMove .dropWaking .gone

/-- Steps of a call on a body that touch nothing but the call. -/
inductive BodyMove (body : IncomingBody) : BodyPhase → BodyPhase → Prop
  | woke : BodyMove body .waking .held
  | checked (complete : Bool) : BodyMove body .dropChecking (.dropAbandoning complete)
  | dropCreditWoke (complete : Bool) :
    BodyMove body (.dropCreditWaking complete) (Common.afterCredit body complete)
  | reset : BodyMove body .dropResetting .dropWaking
  | dropWoke : BodyMove body .dropWaking .gone

/-- What a body does behind a frame that it has read. -/
def phaseAfter : Received → BodyPhase
  | .data chunk => .crediting chunk.length
  | _ => .held

/-- What a body's drop does once it was abandoned with bytes unread. -/
def phaseAbandoned (body : IncomingBody) (complete : Bool) (unread : ℕ) : BodyPhase :=
  if unread = 0 then Common.afterCredit body complete else .dropCrediting complete unread

/-- One step of an exchange, and the credit it gives back. -/
inductive ExchangeStep (id : ℕ) (e : Exchange) : Common.Action → Exchange → Option (StreamId × ℕ) → Prop
  | moved {phase : FuturePhase} (h : FutureMove e.future phase) :
    ExchangeStep id e (.stepFuture id) { e with future := phase } none
  | refused {error : Error} (h : e.future = .failing error) :
    ExchangeStep id e (.stepFuture id) { e with slot := e.slot.fail error, future := .pending } none
  | dropFailed (h : e.future = .dropFailing) :
    ExchangeStep id e (.stepFuture id)
      { e with slot := e.slot.fail Common.callerAbandoned, future := .dropStream } none
  | handedOver {head : ResponseParts} {stream : StreamId} (h : e.future = .resolving head)
      (hstream : e.slot.stream = some stream) :
    ExchangeStep id e (.stepFuture id) { e with body := some ⟨stream, true, .held⟩, future := .resolved } none
  | waits (h : e.future = .pending) (houtcome : e.slot.outcome = none) :
    ExchangeStep id e (.pollFuture id)
      { e with slot := { e.slot with outcome := none, waker := true }, future := .pending } none
  | answered {head : ResponseParts} (h : e.future = .pending) (houtcome : e.slot.outcome = some (.ok head)) :
    ExchangeStep id e (.pollFuture id)
      { e with slot := { e.slot with outcome := none }, future := .resolving head } none
  | failed {error : Error} (h : e.future = .pending) (houtcome : e.slot.outcome = some (.error error)) :
    ExchangeStep id e (.pollFuture id) { e with slot := { e.slot with outcome := none }, future := .resolved } none
  | dropped (h : e.future = .pending) : ExchangeStep id e (.dropFuture id) { e with future := .dropFailing } none
  | droppedLate (h : e.future = .resolved) : ExchangeStep id e (.dropFuture id) { e with future := .gone } none
  | polled {body : IncomingBody} (hbody : e.body = some body) (h : body.phase = .held) :
    ExchangeStep id e (.pollBody id)
      { e with
        incoming := e.incoming.poll.2
        body := some { body with phase := phaseAfter e.incoming.poll.1 } } none
  | bodyMoved {body : IncomingBody} {phase : BodyPhase} (hbody : e.body = some body)
      (h : BodyMove body body.phase phase) :
    ExchangeStep id e (.stepBody id) { e with body := some { body with phase } } none
  | credited {body : IncomingBody} {bytes : ℕ} (hbody : e.body = some body) (h : body.phase = .crediting bytes) :
    ExchangeStep id e (.stepBody id) { e with body := some { body with phase := .waking } } (some (body.stream, bytes))
  | abandoned {body : IncomingBody} {complete : Bool} (hbody : e.body = some body)
      (h : body.phase = .dropAbandoning complete) :
    ExchangeStep id e (.stepBody id)
      { e with
        incoming := e.incoming.abandon.2
        body := some { body with phase := phaseAbandoned body complete e.incoming.unread } } none
  | dropCredited {body : IncomingBody} {complete : Bool} {unread : ℕ} (hbody : e.body = some body)
      (h : body.phase = .dropCrediting complete unread) :
    ExchangeStep id e (.stepBody id) { e with body := some { body with phase := .dropCreditWaking complete } }
      (some (body.stream, unread))
  | bodyDropped {body : IncomingBody} (hbody : e.body = some body) (h : body.phase = .held) :
    ExchangeStep id e (.dropBody id) { e with body := some { body with phase := .dropChecking } } none

/-! ## Steps of the shared state -/

/-- What a step leaves that makes no exchange and pushes no command. -/
structure Frame (c c' : Common) : Prop where
  created : c'.created = c.created
  queue : c'.queue = c.queue
  queueLocked : c'.queueLocked = c.queueLocked
  queueAbandoned : c'.queueAbandoned = c.queueAbandoned

variable (c : Common)

theorem Frame.refl : Frame c c := ⟨rfl, rfl, rfl, rfl⟩

/-- The credit that is shared once `given` is added. -/
def give (credit : List (StreamId × ℕ)) : Option (StreamId × ℕ) → List (StreamId × ℕ)
  | none => credit
  | some (stream, bytes) => QmuxHttp3Join.addTo stream bytes credit

/-- What one action of a handle, a future, a body or a waker does. -/
inductive Acts (c : Common) : Common.Action → Common → Prop
  | idle {action : Common.Action} {c' : Common} (hframe : Frame c c') (hexchanges : c'.exchanges = c.exchanges)
      (hcredit : c'.inner.credit = c.inner.credit) : Acts c action c'
  | sent {request : Request} : Acts c (.sendRequest request) { c with
      created := c.created + 1
      exchanges := Function.update c.exchanges c.created { request := some request, future := .checkingGone } }
  | pushed {id : ℕ} {request : Request} (hfuture : (c.exchanges id).future = .pushing)
      (hrequest : (c.exchanges id).request = some request) (hlocked : c.queueLocked = false) :
    Acts c (.stepFuture id) ((c.pushCommand ⟨request, id⟩).setFuture id .waking)
  | moved {action : Common.Action} {id : ℕ} {e' : Exchange} {given : Option (StreamId × ℕ)} {c' : Common}
      (h : ExchangeStep id (c.exchanges id) action e' given) (hframe : Frame c c')
      (hexchanges : c'.exchanges = Function.update c.exchanges id e')
      (hcredit : c'.inner.credit = give c.inner.credit given) : Acts c action c'

namespace Acts
variable {c : Common}

theorem wakeDriver_frame (c : Common) : Frame c c.wakeDriver ∧ c.wakeDriver.exchanges = c.exchanges ∧
    c.wakeDriver.inner = c.inner := by
  rw [Common.wakeDriver]
  split
  · exact ⟨⟨rfl, rfl, rfl, rfl⟩, rfl, rfl⟩
  · exact ⟨Frame.refl c, rfl, rfl⟩

variable {action : Common.Action} {id : ℕ} {f : Exchange → Exchange}

theorem one (h : ExchangeStep id (c.exchanges id) action (f (c.exchanges id)) none) :
    Acts c action (c.modifyExchange id f) :=
  .moved h ⟨rfl, rfl, rfl, rfl⟩ rfl rfl

theorem woken (h : ExchangeStep id (c.exchanges id) action (f (c.exchanges id)) none) :
    Acts c action (c.wakeDriver.modifyExchange id f) := by
  obtain ⟨⟨hcreated, hqueue, hlocked, habandoned⟩, hexchanges, hinner⟩ := wakeDriver_frame c
  refine .moved h ⟨hcreated, hqueue, hlocked, habandoned⟩ ?_ (congrArg Inner.credit hinner)
  simp only [Common.modifyExchange, hexchanges]

theorem resetting {stream : StreamId} {code : ℕ}
    (h : ExchangeStep id (c.exchanges id) action (f (c.exchanges id)) none) :
    Acts c action ((c.modifyInner (·.reset stream code)).modifyExchange id f) := by
  refine .moved h ⟨rfl, rfl, rfl, rfl⟩ rfl ?_
  simp only [Common.modifyInner, Common.modifyExchange, Inner.reset]
  split
  · rfl
  · rfl

theorem crediting {stream : StreamId} {bytes : ℕ}
    (h : ExchangeStep id (c.exchanges id) action (f (c.exchanges id)) (some (stream, bytes))) :
    Acts c action ((c.modifyInner (·.addCredit stream bytes)).modifyExchange id f) :=
  .moved h ⟨rfl, rfl, rfl, rfl⟩ rfl rfl

end Acts

variable (id : ℕ)

theorem modifyExchange_modifyExchange (f g : Exchange → Exchange) :
    (c.modifyExchange id f).modifyExchange id g = c.modifyExchange id fun e => g (f e) := by
  simp [Common.modifyExchange]

theorem acts_stepFuture : Acts c (.stepFuture id) (c.stepFuture id) := by
  have hidle : Acts c (.stepFuture id) c := .idle (Frame.refl c) rfl rfl
  rw [Common.stepFuture]
  cases hfuture : (c.exchanges id).future with
  | absent => exact hidle
  | checkingGone =>
    refine .one (.moved ?_)
    rw [hfuture]
    split
    · exact .isGone
    · exact .notGone
  | checkingRefusing =>
    refine .one (.moved ?_)
    rw [hfuture]
    split
    · exact .isRefusing
    · exact .notRefusing
  | failing error =>
    dsimp only [Common.modifySlot, Common.setFuture]
    rw [modifyExchange_modifyExchange]
    exact .one (.refused hfuture)
  | pushing =>
    dsimp only
    split
    · rename_i request hrequest
      split
      · exact hidle
      · rename_i hlocked
        exact .pushed hfuture hrequest (Bool.eq_false_iff.mpr hlocked)
    · exact hidle
  | waking => exact .woken (.moved (hfuture ▸ .woke))
  | pending => exact hidle
  | resolving head =>
    dsimp only
    split
    · rename_i stream hstream
      dsimp only [Common.setBody, Common.setFuture]
      rw [modifyExchange_modifyExchange]
      exact .one (.handedOver hfuture hstream)
    · exact hidle
  | resolved => exact hidle
  | dropFailing =>
    dsimp only [Common.modifySlot, Common.setFuture]
    rw [modifyExchange_modifyExchange]
    exact .one (.dropFailed hfuture)
  | dropStream =>
    refine .one (.moved ?_)
    rw [hfuture]
    split
    · exact .bound _
    · exact .unbound
  | dropReset stream => exact .resetting (.moved (hfuture ▸ .reset stream))
  | dropWaking => exact .woken (.moved (hfuture ▸ .dropWoke))
  | gone => exact hidle

theorem acts_pollFuture : Acts c (.pollFuture id) (c.pollFuture id) := by
  rw [Common.pollFuture]
  split
  · rename_i hfuture
    dsimp only [Common.modifySlot, Common.setFuture, Slot.poll]
    rw [modifyExchange_modifyExchange]
    cases houtcome : (c.exchanges id).slot.outcome with
    | none => exact .one (.waits hfuture houtcome)
    | some outcome =>
      cases outcome with
      | error error => exact .one (.failed hfuture houtcome)
      | ok head => exact .one (.answered hfuture houtcome)
  · exact .idle (Frame.refl c) rfl rfl

theorem acts_dropFuture : Acts c (.dropFuture id) (c.dropFuture id) := by
  rw [Common.dropFuture]
  split
  · rename_i hfuture
    exact .one (.dropped hfuture)
  · rename_i hfuture
    exact .one (.droppedLate hfuture)
  · exact .idle (Frame.refl c) rfl rfl

theorem acts_pollBody : Acts c (.pollBody id) (c.pollBody id) := by
  rw [Common.pollBody]
  split
  · rename_i body hbody
    split
    · rename_i hphase
      dsimp only [Common.modifyIncoming, Common.setBody]
      rw [modifyExchange_modifyExchange]
      have hpolled := Acts.one (f := fun e => { e with
        incoming := (c.exchanges id).incoming.poll.2
        body := some { body with phase := phaseAfter (c.exchanges id).incoming.poll.1 } }) (.polled hbody hphase)
      exact hpolled
    · exact .idle (Frame.refl c) rfl rfl
  · exact .idle (Frame.refl c) rfl rfl

theorem acts_stepBody : Acts c (.stepBody id) (c.stepBody id) := by
  have hidle : Acts c (.stepBody id) c := .idle (Frame.refl c) rfl rfl
  rw [Common.stepBody]
  cases hbody : (c.exchanges id).body with
  | none => exact hidle
  | some body =>
    dsimp only
    cases hphase : body.phase with
    | held => exact hidle
    | gone => exact hidle
    | crediting bytes => exact .crediting (.credited hbody hphase)
    | waking => exact .woken (.bodyMoved hbody (hphase ▸ .woke))
    | dropChecking => exact .one (.bodyMoved hbody (hphase ▸ .checked _))
    | dropAbandoning complete =>
      dsimp only [Common.modifyIncoming, Common.setBody]
      rw [modifyExchange_modifyExchange]
      exact .one (f := fun e => { e with
        incoming := (c.exchanges id).incoming.abandon.2
        body := some { body with phase := phaseAbandoned body complete (c.exchanges id).incoming.unread } })
        (.abandoned hbody hphase)
    | dropCrediting complete unread => exact .crediting (.dropCredited hbody hphase)
    | dropCreditWaking complete => exact .woken (.bodyMoved hbody (hphase ▸ .dropCreditWoke complete))
    | dropResetting => exact .resetting (.bodyMoved hbody (hphase ▸ .reset))
    | dropWaking => exact .woken (.bodyMoved hbody (hphase ▸ .dropWoke))

theorem acts_dropBody : Acts c (.dropBody id) (c.dropBody id) := by
  rw [Common.dropBody]
  split
  · rename_i body hbody
    split
    · rename_i hphase
      exact .one (.bodyDropped hbody hphase)
    · exact .idle (Frame.refl c) rfl rfl
  · exact .idle (Frame.refl c) rfl rfl

theorem acts_act (action : Common.Action) : Acts c action (c.act action) := by
  have hidle : Acts c action c := .idle (Frame.refl c) rfl rfl
  cases action with
  | sendRequest request =>
    rw [Common.act, Common.sendRequest]
    split
    · exact hidle
    · exact .sent
  | stepFuture id => exact acts_stepFuture c id
  | pollFuture id => exact acts_pollFuture c id
  | dropFuture id => exact acts_dropFuture c id
  | pollBody id => exact acts_pollBody c id
  | stepBody id => exact acts_stepBody c id
  | dropBody id => exact acts_dropBody c id
  | cloneHandle =>
    rw [Common.act]
    split
    · exact hidle
    · exact .idle ⟨rfl, rfl, rfl, rfl⟩ rfl rfl
  | dropHandle => exact .idle ⟨rfl, rfl, rfl, rfl⟩ rfl rfl
  | shutdown =>
    rw [Common.act]
    split
    · exact hidle
    · exact .idle ⟨rfl, rfl, rfl, rfl⟩ rfl rfl
  | storeRefusing =>
    rw [Common.act]
    split
    · exact hidle
    · exact .idle ⟨rfl, rfl, rfl, rfl⟩ rfl rfl
  | markReady stream =>
    refine .idle ⟨rfl, rfl, rfl, rfl⟩ rfl ?_
    simp only [Common.act, Inner.markReady]
    split
    · rfl
    · rfl
  | wakeHandler stream => exact .idle ⟨rfl, rfl, rfl, rfl⟩ rfl rfl
  | wake =>
    rw [Common.act]
    split
    · exact hidle
    · obtain ⟨⟨hcreated, hqueue, hlocked, habandoned⟩, hexchanges, hinner⟩ := Acts.wakeDriver_frame c
      exact .idle ⟨hcreated, hqueue, hlocked, habandoned⟩ hexchanges (congrArg Inner.credit hinner)

end Ngnet.Http3HandleSteps
