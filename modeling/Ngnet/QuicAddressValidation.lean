import Ngnet.QuicEndpointProtocols
import Ngnet.QuicHandleSteps
import Ngnet.QuicScriptedHost

/-!
# What an unvalidated source costs a QUIC endpoint

The policy of `endpoint/validate.rs`, and what `begin` and `answer_unmatched` do with it, as a platform of the
endpoint over one that does the rest. The helpers of the core that make tokens, and packets of them, are
parameters. Where no token verifies, a datagram adds no connection and no route, and at most one answer to the
address it came from; resets are smaller than what they answer, and there are no more of them between two
refills than the burst.
-/

namespace Ngnet.QuicAddressValidation
open QmuxVarints InterleavedPrograms QuicEndpointDriver QuicEndpointProtocols
open QuicEndpoint hiding Decision

/-! ## Tokens -/

/-- A secret that tokens are authenticated with. -/
structure TokenSecret where
  bytes : Bytes
  long : 16 ≤ bytes.length

inductive InitialToken
  | absent
  | retry (bytes : Bytes)
  | regular (bytes : Bytes)
  | unknown (bytes : Bytes)
  deriving DecidableEq, Repr

/-- The first byte of a token names its kind. -/
def InitialToken.ofBytes : Bytes → InitialToken
  | [] => .absent
  | kind :: bytes =>
    if kind = 0xB6 ∨ kind = 0xB7 then .retry (kind :: bytes)
    else if kind = 0x36 then .regular (kind :: bytes)
    else .unknown (kind :: bytes)

/-- The helpers of the core, and the source of what is random. -/
class TokenHelpers (ρ : Type) where
  generateRetryToken (secret : Bytes) (version : ℕ) (remote : Address) (retryScid originalDcid : Bytes) (now : ℕ) :
    ρ → Option Bytes × ρ
  verifyRetryToken (secret token : Bytes) (version : ℕ) (remote : Address) (dcid : Bytes) (lifetime now : ℕ) : Option Bytes
  writeRetry (room version : ℕ) (dcid scid originalDcid token : Bytes) : Option Bytes
  resetToken (secret cid : Bytes) : Option Bytes
  writeStatelessReset (room : ℕ) (token random : Bytes) : Except CoreError Bytes
  fill (len : ℕ) : ρ → Option {bytes : Bytes // bytes.length = len} × ρ

variable {ρ : Type} [TokenHelpers ρ]

variable (ρ) in
def verifyRetryToken (secret : TokenSecret) (token : Bytes) (version : ℕ) (remote : Address) (dcid : Bytes)
    (lifetime now : ℕ) : Option Bytes :=
  if token.isEmpty then none
  else TokenHelpers.verifyRetryToken ρ secret.bytes token version remote dcid lifetime now

def resetTokenLen : ℕ := 16

def minResetRandom : ℕ := 5

def maxDatagram : ℕ := 1500

def defaultLen : ℕ := 8

variable (ρ) in
def writeStatelessResetSmallerThan (room : ℕ) (token random : Bytes) (provokingLen : ℕ) : Except CoreError (Option Bytes) :=
  if provokingLen < resetTokenLen + 1 then .ok none
  else
    let budget := provokingLen - (resetTokenLen + 1)
    if budget < minResetRandom then .ok none
    else
      let kept := min budget random.length
      if kept < minResetRandom then .ok none
      else
        match TokenHelpers.writeStatelessReset ρ room token (random.take kept) with
        | .error error => .error error
        | .ok written => if provokingLen ≤ written.length then .ok none else .ok (some written)

theorem length_lt_of_smallerThan {room provokingLen : ℕ} {token random reset : Bytes}
    (h : writeStatelessResetSmallerThan ρ room token random provokingLen = .ok (some reset)) : reset.length < provokingLen := by
  simp only [writeStatelessResetSmallerThan] at h
  split at h
  · cases h
  split at h
  · cases h
  split at h
  · cases h
  split at h
  · cases h
  split at h
  · cases h
  · rename_i hsmaller
    cases h
    exact Nat.lt_of_not_le hsmaller

/-! ## The policy -/

/-- `Validation`. Times are in nanoseconds. -/
structure Validation where
  secret : TokenSecret
  lifetime : ℕ := 10000000000
  resetBudget : ℕ := 100
  resetBurst : ℕ := 100
  refilledAt : Option ℕ := none
  within : resetBudget ≤ resetBurst := by decide

/-- What a first packet has earned. -/
inductive Decision
  | accept (original : Bytes)
  | retry (scid token : Bytes)
  | ignore
  deriving DecidableEq, Repr

def second : ℕ := 1000000000

namespace Validation
variable {v : Validation} {now : ℕ}

/-- The setter `reset_burst`. -/
def withResetBurst (v : Validation) (burst : ℕ) : Validation :=
  { v with resetBurst := burst, resetBudget := burst, within := Nat.le_refl _ }

variable (ρ) in
/-- The identifier that the client first addressed, if its token says so. -/
def verified (v : Validation) (packet : InitialPacket) (remote : Address) (now : ℕ) : Option Bytes :=
  match InitialToken.ofBytes packet.token with
  | .retry token => verifyRetryToken ρ v.secret token packet.version remote packet.dcid v.lifetime now
  | _ => none

def decide (v : Validation) (packet : InitialPacket) (remote : Address) (now : ℕ) (host : ρ) : Decision × ρ :=
  match v.verified ρ packet remote now with
  | some original => (.accept original, host)
  | none =>
    match TokenHelpers.fill defaultLen host with
    | (none, host) => (.ignore, host)
    | (some scid, host) =>
      match TokenHelpers.generateRetryToken v.secret.bytes packet.version remote scid packet.dcid now host with
      | (some token, host) => (.retry scid token, host)
      | (none, host) => (.ignore, host)

theorem verified_of_accept {packet : InitialPacket} {remote : Address} {host host' : ρ} {original : Bytes}
    (h : v.decide packet remote now host = (.accept original, host')) : v.verified ρ packet remote now = some original := by
  rw [decide] at h
  split at h
  · rename_i original' hverified
    cases h
    exact hverified
  split at h
  · cases h
  split at h
  · cases h
  · cases h

/-- Whether the budget is refilled. -/
def isDue (v : Validation) (now : ℕ) : Bool := v.refilledAt.any (second ≤ now - ·)

def refill (v : Validation) (now : ℕ) : Validation :=
  match v.refilledAt with
  | some at_ =>
    if second ≤ now - at_ then { v with resetBudget := v.resetBurst, refilledAt := some now, within := Nat.le_refl _ }
    else v
  | none => { v with refilledAt := some now }

def takeResetBudget (v : Validation) (now : ℕ) : Bool × Validation :=
  let v := v.refill now
  if v.resetBudget = 0 then (false, v)
  else (true, { v with resetBudget := v.resetBudget - 1, within := (Nat.sub_le _ _).trans v.within })

end Validation

/-! ## Refills -/

/-- What happens to a budget: it is refilled, or a reset is drawn from it, which may come to nothing. -/
inductive ResetEvent
  | refilled (time : ℕ)
  | drawn (reset : Option Bytes)
  deriving DecidableEq, Repr

namespace ResetEvent

def time : ResetEvent → Option ℕ
  | refilled time => some time
  | drawn _ => none

def sent : ResetEvent → Option Bytes
  | refilled _ => none
  | drawn reset => reset

theorem sent_drawn (reset : Option Bytes) : [drawn reset].filterMap sent = reset.toList := by
  cases reset with
  | none => rfl
  | some reset => rfl

end ResetEvent

/-- Between two refills no more is drawn than the burst, and refills are at least a second apart. -/
structure Budgeted (burst : ℕ) (events : List ResetEvent) : Prop where
  bounded : ∀ segment, segment <:+: events → (∀ event ∈ segment, event.time = none) → segment.length ≤ burst
  spaced : (events.filterMap ResetEvent.time).Pairwise (· + second ≤ ·)

/-- What is left of a budget behind some events. -/
structure Leaves (v : Validation) (events : List ResetEvent) : Prop extends Budgeted v.resetBurst events where
  left : ∀ segment, segment <:+ events → (∀ event ∈ segment, event.time = none) → segment.length + v.resetBudget ≤ v.resetBurst
  past : ∀ time ∈ events.filterMap ResetEvent.time, ∃ last, v.refilledAt = some last ∧ time ≤ last

section Budget
variable {v : Validation} {events : List ResetEvent} {now : ℕ}

theorem leaves_nil (v : Validation) : Leaves v [] where
  bounded segment h _ := by
    rw [List.infix_nil.mp h]
    exact Nat.zero_le _
  spaced := List.Pairwise.nil
  left segment h _ := by
    rw [List.suffix_nil.mp h, List.length_nil, Nat.zero_add]
    exact v.within
  past := nofun

/-- The events of a budget that is refilled. -/
def refills (v : Validation) (now : ℕ) : List ResetEvent := if v.isDue now then [.refilled now] else []

theorem Leaves.refill (h : Leaves v events) : Leaves (v.refill now) (events ++ refills v now) := by
  rw [Validation.refill, refills, Validation.isDue]
  cases hlast : v.refilledAt with
  | none =>
    simp only [Option.any_none, Bool.false_eq_true, ↓reduceIte, List.append_nil]
    refine ⟨h.toBudgeted, h.left, fun time htime => ?_⟩
    obtain ⟨last, hsome, -⟩ := h.past time htime
    rw [hlast] at hsome
    cases hsome
  | some last =>
    simp only [Option.any_some, decide_eq_true_eq]
    split
    · rename_i hdue
      have hpast : ∀ time ∈ events.filterMap ResetEvent.time, time + second ≤ now := by
        intro time htime
        obtain ⟨last', hsome, hle⟩ := h.past time htime
        obtain rfl : last = last' := Option.some.inj (hlast.symm.trans hsome)
        have hsecond : 0 < second := by decide
        omega
      refine ⟨⟨fun segment hsegment hnone => ?_, ?_⟩, fun segment hsegment hnone => ?_, fun time htime => ⟨now, rfl, ?_⟩⟩
      · -- A segment without a refill lies before this one.
        rcases List.infix_concat_iff.mp hsegment with hsuffix | hsegment
        · rcases List.suffix_concat_iff.mp hsuffix with rfl | ⟨rest, rfl, -⟩
          · exact Nat.zero_le _
          · cases hnone (.refilled now) (List.mem_append_right _ (List.mem_singleton_self _))
        · exact h.bounded segment hsegment hnone
      · rw [List.filterMap_append, List.pairwise_append]
        refine ⟨h.spaced, List.pairwise_singleton _ _, fun time htime time' htime' => ?_⟩
        obtain rfl : time' = now := by simpa [ResetEvent.time] using htime'
        exact hpast time htime
      · rcases List.suffix_concat_iff.mp hsegment with rfl | ⟨rest, rfl, -⟩
        · exact (Nat.zero_add _).le
        · cases hnone (.refilled now) (List.mem_append_right _ (List.mem_singleton_self _))
      · rw [List.filterMap_append, List.mem_append] at htime
        rcases htime with htime | htime
        · exact (Nat.le_add_right _ _).trans (hpast time htime)
        · obtain rfl : time = now := by simpa [ResetEvent.time] using htime
          exact Nat.le_refl _
    · rw [List.append_nil]
      exact h

theorem Leaves.draw (h : Leaves v events) (hleft : v.resetBudget ≠ 0) (reset : Option Bytes)
    (hle : v.resetBudget - 1 ≤ v.resetBurst) :
    Leaves { v with resetBudget := v.resetBudget - 1, within := hle } (events ++ [.drawn reset]) := by
  have htimes : (events ++ [ResetEvent.drawn reset]).filterMap ResetEvent.time = events.filterMap ResetEvent.time := by
    rw [List.filterMap_append]
    exact List.append_nil _
  have hlast : ∀ segment, segment <:+ events ++ [ResetEvent.drawn reset] → (∀ event ∈ segment, event.time = none) →
      segment.length + (v.resetBudget - 1) ≤ v.resetBurst := by
    intro segment hsegment hnone
    rcases List.suffix_concat_iff.mp hsegment with rfl | ⟨rest, rfl, hrest⟩
    · rw [List.length_nil, Nat.zero_add]
      exact hle
    · have hbounded := h.left rest hrest fun event hevent => hnone event (List.mem_append_left _ hevent)
      rw [List.length_append, List.length_singleton]
      omega
  refine ⟨⟨fun segment hsegment hnone => ?_, ?_⟩, hlast, ?_⟩
  · rcases List.infix_concat_iff.mp hsegment with hsuffix | hsegment
    · exact (Nat.le_add_right _ _).trans (hlast segment hsuffix hnone)
    · exact h.bounded segment hsegment hnone
  · rw [htimes]
    exact h.spaced
  · rw [htimes]
    exact h.past

end Budget

/-! ## The platform -/

/-- A platform with an address validation, and what has happened to the budget of its resets. -/
structure Validating (ρ : Type) where
  base : ρ
  validation : Validation
  log : List ResetEvent := []

namespace Validating
variable (κ : Type) [Platform ρ κ]

/-- What `begin` does with a first packet, up to the datagram of a Retry. -/
def decide (host : Validating ρ) (packet : InitialPacket) (remote : Address) : QuicEndpoint.Decision × Validating ρ :=
  let (now, base) := Platform.now (κ := κ) host.base
  match host.validation.decide packet remote now base with
  | (.accept original, base) => (.accept original, { host with base })
  | (.retry scid token, base) =>
    (.retry (TokenHelpers.writeRetry ρ maxDatagram packet.version packet.scid scid packet.dcid token), { host with base })
  | (.ignore, base) => (.ignore, { host with base })

/-- The reset for a datagram, if there is one. -/
def resetFor (secret : TokenSecret) (datagram : Bytes) (base : ρ) : Option Bytes × ρ :=
  match Platform.inspect (κ := κ) base datagram with
  | none => (none, base)
  | some dcid =>
    match TokenHelpers.resetToken ρ secret.bytes dcid with
    | none => (none, base)
    | some token =>
      match TokenHelpers.fill datagram.length base with
      | (none, base) => (none, base)
      | (some random, base) =>
        match writeStatelessResetSmallerThan ρ maxDatagram token random.val datagram.length with
        | .ok reset => (reset, base)
        | .error _ => (none, base)

/-- `answer_unmatched`, up to the queue. The budget is charged before it is known whether there is a reset. -/
def answerUnmatched (host : Validating ρ) (datagram : Bytes) : Option Bytes × Validating ρ :=
  let (now, base) := Platform.now (κ := κ) host.base
  let log := host.log ++ refills host.validation now
  match host.validation.takeResetBudget now with
  | (false, validation) => (none, { base, validation, log })
  | (true, validation) =>
    let (reset, base) := resetFor κ validation.secret datagram base
    (reset, { base, validation, log := log ++ [.drawn reset] })

instance : Platform (Validating ρ) κ where
  now host := ((Platform.now (κ := κ) host.base).1, { host with base := (Platform.now (κ := κ) host.base).2 })
  arrange keys host :=
    ((Platform.arrange (κ := κ) keys host.base).1, { host with base := (Platform.arrange (κ := κ) keys host.base).2 })
  inspect host datagram := Platform.inspect (κ := κ) host.base datagram
  inspectInitial host datagram := Platform.inspectInitial (κ := κ) host.base datagram
  dial remote serverName host :=
    ((Platform.dial (κ := κ) remote serverName host.base).1,
      { host with base := (Platform.dial (κ := κ) remote serverName host.base).2 })
  accept source packet original retried host :=
    ((Platform.accept (κ := κ) source packet original retried host.base).1,
      { host with base := (Platform.accept (κ := κ) source packet original retried host.base).2 })
  decide := some fun packet remote host => host.decide κ packet remote
  statelessReset datagram host := host.answerUnmatched κ datagram
  pollSleep deadline host :=
    ((Platform.pollSleep (κ := κ) deadline host.base).1,
      { host with base := (Platform.pollSleep (κ := κ) deadline host.base).2 })

variable {κ}

theorem decide_spec (host : Validating ρ) (packet : InitialPacket) (remote : Address) :
    (host.decide κ packet remote).2.validation = host.validation ∧ (host.decide κ packet remote).2.log = host.log ∧
      ∀ original, (host.decide κ packet remote).1 = .accept original →
        host.validation.verified ρ packet remote (Platform.now (κ := κ) host.base).1 = some original := by
  rw [decide]
  dsimp only
  split
  · rename_i hdecided
    refine ⟨rfl, rfl, fun original' heq => ?_⟩
    cases heq
    exact Validation.verified_of_accept hdecided
  · exact ⟨rfl, rfl, nofun⟩
  · exact ⟨rfl, rfl, nofun⟩

theorem length_lt_of_resetFor {secret : TokenSecret} {datagram reset : Bytes} {base base' : ρ}
    (h : resetFor κ secret datagram base = (some reset, base')) : reset.length < datagram.length := by
  rw [resetFor] at h
  split at h
  · cases h
  split at h
  · cases h
  split at h
  · cases h
  split at h
  · rename_i hwritten
    cases h
    exact length_lt_of_smallerThan hwritten
  · cases h

theorem answerUnmatched_spec {host : Validating ρ} {events : List ResetEvent} (datagram : Bytes)
    (h : Leaves host.validation events) : ∃ more,
      (host.answerUnmatched κ datagram).2.log = host.log ++ more ∧
      Leaves (host.answerUnmatched κ datagram).2.validation (events ++ more) ∧
      (host.answerUnmatched κ datagram).2.validation.resetBurst = host.validation.resetBurst ∧
      more.filterMap ResetEvent.sent = (host.answerUnmatched κ datagram).1.toList ∧
      ∀ reset, (host.answerUnmatched κ datagram).1 = some reset → reset.length < datagram.length := by
  have hrefill : Leaves (host.validation.refill (Platform.now (κ := κ) host.base).1) _ := h.refill
  have hburst : ∀ now, (host.validation.refill now).resetBurst = host.validation.resetBurst := by
    intro now
    rw [Validation.refill]
    split
    · split
      all_goals rfl
    · rfl
  have hsent : ∀ now, (refills host.validation now).filterMap ResetEvent.sent = [] := by
    intro now
    rw [refills]
    split
    all_goals rfl
  simp only [answerUnmatched, Validation.takeResetBudget]
  split
  · rename_i hspent
    split at hspent
    · cases hspent
      exact ⟨_, rfl, hrefill, hburst _, hsent _, nofun⟩
    · cases hspent
  · rename_i validation hdrawn
    split at hdrawn
    · cases hdrawn
    rename_i hleft
    cases hdrawn
    refine ⟨refills host.validation _ ++ [.drawn _], (List.append_assoc ..), ?_, hburst _, ?_, fun reset hreset => ?_⟩
    · rw [← List.append_assoc]
      exact hrefill.draw hleft _ _
    · rw [List.filterMap_append, hsent, List.nil_append]
      exact ResetEvent.sent_drawn _
    · exact length_lt_of_resetFor (Prod.ext hreset rfl)

end Validating

/-! ## Connections that are worked on -/

section Frame
variable {κ σ : Type} {w w' w'' : World κ σ (Validating ρ)} {i : ℕ} {tracked : Tracked κ}

omit [TokenHelpers ρ]

/-- What changes at most while a connection is worked on: its entry, and what the platform knows beside the
policy. -/
structure Spares (i : ℕ) (w w' : World κ σ (Validating ρ)) : Prop where
  routes : w'.driver.routes = w.driver.routes
  outbox : w'.driver.outbox = w.driver.outbox
  validation : w'.driver.platform.validation = w.driver.platform.validation
  log : w'.driver.platform.log = w.driver.platform.log
  tracked : ∀ j : ℕ, (w'.driver.connections[j]?).isSome = (w.driver.connections[j]?).isSome
  others : ∀ j : ℕ, j ≠ i → w'.driver.connections[j]? = w.driver.connections[j]?

theorem Spares.trans (h : Spares i w w') (h' : Spares i w' w'') : Spares i w w'' where
  routes := h'.routes.trans h.routes
  outbox := h'.outbox.trans h.outbox
  validation := h'.validation.trans h.validation
  log := h'.log.trans h.log
  tracked j := (h'.tracked j).trans (h.tracked j)
  others j hj := (h'.others j hj).trans (h.others j hj)

theorem spares_of_eq (h : w'.driver = w.driver) : Spares i w w' := by
  constructor
  all_goals
    rw [h]
    try exact fun _ => rfl
  exact fun _ _ => rfl

theorem spares_setTracked (h : w.driver.connections[i]? = some tracked) (tracked' : Tracked κ) :
    Spares i w (w.setTracked i tracked') := by
  refine ⟨rfl, rfl, rfl, rfl, fun j => ?_, fun j hj => ?_⟩
  · by_cases hj : i = j
    · subst hj
      simp [World.setTracked, World.onDriver, h]
    · simp [World.setTracked, World.onDriver, Std.TreeMap.getElem?_insert, hj]
  · simp [World.setTracked, World.onDriver, Std.TreeMap.getElem?_insert, Ne.symm hj]

theorem spares_modifyTracked (w : World κ σ (Validating ρ)) (i : ℕ) (f : Tracked κ → Tracked κ) : Spares i w (w.modifyTracked i f) := by
  rw [World.modifyTracked]
  split
  · exact spares_setTracked ‹_› _
  · exact spares_of_eq rfl

variable [Transport κ]

theorem spares_callConn {α : Type} (h : w.driver.connections[i]? = some tracked) (conn : κ) (call : ConnCall α) :
    Spares i w (w.callConn i tracked conn call).2 :=
  (spares_setTracked h _).trans (spares_of_eq rfl)

theorem spares_failClosed (w : World κ σ (Validating ρ)) (i c : ℕ) : Spares i w (w.failClosed i c) := by
  rw [World.failClosed]
  split
  all_goals exact spares_of_eq rfl

omit [Transport κ] in
theorem spares_finish (w : World κ σ (Validating ρ)) (i c : ℕ) (error : Error) : Spares i w (w.finish i c error) :=
  (spares_modifyTracked w i _).trans (spares_of_eq rfl)

theorem spares_readPkt (h : w.driver.connections[i]? = some tracked) (conn : κ) (datagram : Bytes) (now : ℕ) :
    Spares i w (w.readPkt i tracked conn datagram now) := by
  have hcall : Spares i w (w.callConn i tracked conn (.readPkt datagram now)).2 := spares_callConn h conn _
  rw [World.readPkt]
  generalize w.callConn i tracked conn (.readPkt datagram now) = result at hcall ⊢
  obtain ⟨outcome, w'⟩ := result
  dsimp only at hcall ⊢
  split
  all_goals rename_i heq
  · cases heq
    exact hcall.trans (spares_failClosed _ _ _)
  · cases heq
    exact hcall.trans (spares_failClosed _ _ _)
  · cases heq
    exact hcall
  · cases heq
    exact hcall.trans (spares_finish _ _ _ _)

theorem spares_setRetained (w : World κ σ (Validating ρ)) (i : ℕ) : Spares i w (w.setRetained i) := by
  rw [World.setRetained]
  split
  · exact spares_of_eq rfl
  split
  all_goals exact spares_of_eq rfl

section
omit [Transport κ]

theorem spares_modifySharedOf (w : World κ σ (Validating ρ)) (i : ℕ) (f : ConnectionShared → ConnectionShared) :
    Spares i w (w.modifySharedOf i f) := by
  rw [World.modifySharedOf]
  split
  all_goals exact spares_of_eq rfl

theorem spares_takeObserved (w : World κ σ (Validating ρ)) (i : ℕ) : Spares i w (w.takeObserved i).2 := by
  rw [World.takeObserved]
  split
  all_goals exact spares_of_eq rfl

theorem spares_handOver (w : World κ σ (Validating ρ)) (i : ℕ) : Spares i w (w.handOver i) := by
  rw [World.handOver]
  split
  · exact spares_of_eq rfl
  rename_i tracked h
  split
  · split
    · exact spares_of_eq rfl
    dsimp only
    split
    · exact (spares_setTracked h _).trans (spares_of_eq rfl)
    · exact spares_of_eq rfl
  · exact spares_of_eq rfl

end

variable [TokenHelpers ρ] [Platform ρ κ]

theorem spares_deliver (w : World κ σ (Validating ρ)) (i : ℕ) (datagram : Bytes) : Spares i w (w.deliver i datagram).2 := by
  have hnow : Spares i w w.now.2 := ⟨rfl, rfl, rfl, rfl, fun _ => rfl, fun _ _ => rfl⟩
  rw [World.deliver]
  generalize w.now = result at hnow ⊢
  obtain ⟨now, w'⟩ := result
  dsimp only at hnow ⊢
  split
  · exact hnow
  rename_i tracked h
  split
  · exact hnow.trans (spares_of_eq rfl)
  · exact hnow.trans (spares_readPkt h _ datagram now)

end Frame

/-! ## Datagrams -/

section Datagrams
variable {κ σ : Type} [Transport κ] [Socket σ] [Platform ρ κ] {w w' : World κ σ (Validating ρ)}

/-- A token that the client was sent in a Retry, and that verifies for where the packet comes from and where it
is addressed to. -/
def verified (w : World κ σ (Validating ρ)) (packet : InitialPacket) (source : Address) : Option Bytes :=
  w.driver.platform.validation.verified ρ packet source (Platform.now (κ := κ) w.driver.platform.base).1

/-- No first packet is begun with a token that verifies. -/
def Unvalidated {β : Type} (op : Op κ β) (w : World κ σ (Validating ρ)) : Prop :=
  match op with
  | .begin datagram source => ∀ packet ∈ Platform.inspectInitial (κ := κ) w.driver.platform datagram,
    verified w packet source = none
  | _ => True

instance {β : Type} (op : Op κ β) (w : World κ σ (Validating ρ)) : Decidable (Unvalidated op w) :=
  match op with
  | .begin datagram source =>
    inferInstanceAs (Decidable (∀ packet ∈ Platform.inspectInitial (κ := κ) w.driver.platform datagram, _ = _))
  | .await | .drainDials | .dial | .pollRecv | .route _ | .deliver _ _ | .announce _ | .takeObserved _ | .setRetained _
  | .markEstablished _ | .handOver _ | .putBack _ _ | .keys | .applyRoutes _ | .takeCommands _ | .runCommand _
  | .handleExpiry _ | .sendOutbox | .sendNext _ | .isDone _ | .remove _ | .rearm | .hasPending | .failAll _ | .failDials _
  | .markGone => .isTrue True.intro

/-- The connection that a datagram is routed to. -/
def leadsTo (platform : Validating ρ) (routes : List (Bytes × ℕ)) (datagram : Bytes) : Option ℕ :=
  (Platform.inspect (κ := κ) platform datagram).bind fun id => (routes.find? (·.1 = id)).map (·.2)

/-- What a datagram draws. -/
inductive Reply
  | silence
  | retry (packet : Bytes)
  | reset (packet : Bytes)
  deriving DecidableEq, Repr

namespace Reply

def packet : Reply → Option Bytes
  | silence => none
  | retry packet | reset packet => some packet

def asReset : Reply → Option Bytes
  | reset packet => some packet
  | _ => none

/-- A reset is smaller than what it answers. -/
def Due (datagram : Bytes) : Reply → Prop
  | reset packet => packet.length < datagram.length
  | _ => True

end Reply

omit [Transport κ] [Socket σ] in
theorem decide_world (w : World κ σ (Validating ρ)) (packet : InitialPacket) (source : Address) :
    w.decide packet source = (((w.driver.platform.decide κ packet source).1, true),
      w.onDriver ({ · with platform := (w.driver.platform.decide κ packet source).2 })) := rfl

omit [Socket σ] in
theorem begin_unverified {packet : InitialPacket} {source : Address} (h : verified w packet source = none) :
    ∃ platform : Validating ρ, platform.validation = w.driver.platform.validation ∧ platform.log = w.driver.platform.log ∧
      (w.begin packet source = (none, w.onDriver ({ · with platform })) ∨
        ∃ retry, w.begin packet source = (none, (w.onDriver ({ · with platform })).answerStranger source retry)) := by
  obtain ⟨hvalidation, hlog, hverified⟩ := w.driver.platform.decide_spec (κ := κ) packet source
  refine ⟨(w.driver.platform.decide κ packet source).2, hvalidation, hlog, ?_⟩
  rw [World.begin, decide_world]
  cases hdecision : (w.driver.platform.decide κ packet source).1 with
  | accept original => cases h.symm.trans (hverified original hdecision)
  | retry datagram =>
    cases datagram with
    | none => exact .inl rfl
    | some retry => exact .inr ⟨retry, rfl⟩
  | ignore => exact .inl rfl

theorem verified_of_begin {datagram : Bytes} {source : Address} {index : ℕ}
    (h : (w.applyOp (.begin datagram source : Op κ _)).1 = some index) : ∃ packet original,
      Platform.inspectInitial (κ := κ) w.driver.platform datagram = some packet ∧ verified w packet source = some original := by
  rw [World.applyOp] at h
  split at h
  · rename_i packet hpacket
    cases hverified : verified w packet source with
    | some original => exact ⟨packet, original, hpacket, hverified⟩
    | none =>
      obtain ⟨platform, -, -, hbegin | ⟨retry, hbegin⟩⟩ := begin_unverified hverified
      · rw [hbegin] at h
        cases h
      · rw [hbegin] at h
        cases h
  · cases h

theorem applyOp_begin {datagram : Bytes} {source : Address} {events : List ResetEvent}
    (h : Unvalidated (.begin datagram source : Op κ _) w) (hleaves : Leaves w.driver.platform.validation events) :
    ∃ (w' : World κ σ (Validating ρ)) (reply : Reply) (more : List ResetEvent),
      w.applyOp (.begin datagram source : Op κ _) = (none, w') ∧ w'.driver.routes = w.driver.routes ∧
      w'.driver.connections = w.driver.connections ∧ reply.Due datagram ∧
      w'.driver.outbox = w.driver.outbox ++ (reply.packet.map (source, ·)).toList ∧
      w'.driver.platform.log = w.driver.platform.log ++ more ∧ Leaves w'.driver.platform.validation (events ++ more) ∧
      w'.driver.platform.validation.resetBurst = w.driver.platform.validation.resetBurst ∧
      more.filterMap ResetEvent.sent = reply.asReset.toList := by
  rw [World.applyOp]
  split
  · rename_i packet hpacket
    obtain ⟨platform, hvalidation, hlog, hbegin | ⟨retry, hbegin⟩⟩ := begin_unverified (h packet hpacket)
    · refine ⟨_, .silence, [], hbegin, rfl, rfl, True.intro, ?_, ?_, ?_, ?_, rfl⟩
      · exact (List.append_nil _).symm
      · exact hlog.trans (List.append_nil _).symm
      · rw [List.append_nil]
        exact hvalidation ▸ hleaves
      · exact congrArg Validation.resetBurst hvalidation
    · refine ⟨_, .retry retry, [], hbegin, rfl, rfl, True.intro, rfl, ?_, ?_, ?_, rfl⟩
      · exact hlog.trans (List.append_nil _).symm
      · rw [List.append_nil]
        exact hvalidation ▸ hleaves
      · exact congrArg Validation.resetBurst hvalidation
  · obtain ⟨more, hlog, hleaves', hburst, hsent, hdue⟩ := w.driver.platform.answerUnmatched_spec (κ := κ) datagram hleaves
    have hanswer : w.answerUnmatched datagram source = match (w.driver.platform.answerUnmatched κ datagram).1 with
      | some reset => (w.onDriver ({ · with platform := (w.driver.platform.answerUnmatched κ datagram).2 })).answerStranger
        source reset
      | none => w.onDriver ({ · with platform := (w.driver.platform.answerUnmatched κ datagram).2 }) := rfl
    rw [hanswer]
    cases hreset : (w.driver.platform.answerUnmatched κ datagram).1 with
    | none =>
      rw [hreset] at hsent
      exact ⟨_, .silence, more, rfl, rfl, rfl, True.intro, (List.append_nil _).symm, hlog, hleaves', hburst, hsent⟩
    | some reset =>
      rw [hreset] at hsent
      exact ⟨_, .reset reset, more, rfl, rfl, rfl, hdue reset hreset, rfl, hlog, hleaves', hburst, hsent⟩

/-! ## Sequences of datagrams -/

/-- `dispatch`, for one datagram after the other. -/
def dispatchAll (config : Config) : List (Bytes × Address) → DriverM κ Unit
  | [] => pure ()
  | (datagram, source) :: datagrams => do
    dispatch config datagram source
    dispatchAll config datagrams

/-- An endpoint that works off what has arrived, with its handles in between. -/
def dispatching (config : Config) (datagrams : List (Bytes × Address)) :
    System (Op κ) Error Unit (World κ σ (Validating ρ)) Action where
  program := dispatchAll config datagrams
  cleanup := pure ()
  yields _ := false
  act action w := w.act action

/-- The datagrams that were looked at as first packets, and the connection that is worked on. -/
structure Progress where
  begun : List (Bytes × Address) := []
  working : Option ℕ := none

def Progress.next {β : Type} (k : Progress) (op : Op κ β) (answer : β) : Progress :=
  match op with
  | .route _ => { k with working := answer }
  | .begin datagram source => { k with begun := k.begun ++ [(datagram, source)] }
  | _ => k

/-- The connection that an operation works on. -/
def worksOn {β : Type} : Op κ β → Option ℕ
  | .deliver index _ | .takeObserved index | .setRetained index | .markEstablished index | .handOver index
  | .putBack index _ => some index
  | _ => none

def Progress.Allows (datagrams : List (Bytes × Address)) {β : Type} (k : Progress) (op : Op κ β) : Prop :=
  match op with
  | .route datagram => ∃ source, (datagram, source) ∈ datagrams
  | .begin datagram source => (k.begun ++ [(datagram, source)]).Sublist datagrams
  | op => (worksOn op).isSome = true ∧ worksOn op = k.working

/-- Nothing is begun. -/
def Expects {β : Type} (op : Op κ β) (answer : β) : Prop :=
  match op with
  | .begin _ _ => answer = none
  | _ => True

def protocol (datagrams : List (Bytes × Address)) : Protocol (Op κ) Progress :=
  ⟨Progress.next, Progress.Allows datagrams, Expects⟩

section Protocol
variable {datagrams : List (Bytes × Address)} {k : Progress} {index : ℕ}

section
omit [TokenHelpers ρ] [Transport κ] [Socket σ] [Platform ρ κ]

theorem plain_of_worksOn {β : Type} {op : Op κ β} (h : k.working = some index) (hop : worksOn op = some index) :
    Plain (protocol datagrams) (· = k) op := by
  rintro _ rfl
  cases op
  all_goals first
    | exact ⟨⟨rfl, hop.trans h.symm⟩, fun _ => rfl⟩
    | cases hop

theorem keeps_deliver_index {E : Progress → Prop} (h : k.working = some index) (datagram : Bytes) :
    Keeps (protocol datagrams) (· = k) E (deliver index datagram : DriverM κ Unit) := by
  rw [deliver]
  refine keeps_bind (keeps_perform (plain_of_worksOn h rfl)) fun processed => ?_
  split
  · rw [absorb]
    refine keeps_bind (keeps_perform (plain_of_worksOn h rfl)) fun observed => ?_
    split
    · exact keeps_pure
    refine keeps_bind (keeps_perform (plain_of_worksOn h rfl)) fun _ => ?_
    dsimp only
    split
    · refine keeps_bind (keeps_perform (plain_of_worksOn h rfl)) fun _ => ?_
      exact keeps_bind (keeps_perform (plain_of_worksOn h rfl)) fun _ => keeps_perform (plain_of_worksOn h rfl)
    · exact keeps_bind (keeps_perform (plain_of_worksOn h rfl)) fun _ => keeps_perform (plain_of_worksOn h rfl)
  · exact keeps_pure

theorem follows_dispatch (config : Config) {done rest : List (Bytes × Address)} {datagram : Bytes} {source : Address}
    (hk : k.begun.Sublist done) :
    Follows (protocol (done ++ (datagram, source) :: rest)) (fun _ k' => k'.begun.Sublist (done ++ [(datagram, source)]))
      (fun _ _ => False) (dispatch config datagram source : DriverM κ Unit) k := by
  have hmore : k.begun.Sublist (done ++ [(datagram, source)]) := hk.trans (List.sublist_append_left _ _)
  rw [dispatch]
  refine follows_bind.mpr ⟨⟨source, List.mem_append_right _ List.mem_cons_self⟩, fun routed _ => ?_⟩
  cases routed with
  | some index =>
    refine follows_pure.mpr ?_
    refine Follows.mono (keeps_deliver_index (k := { k with working := some index }) rfl datagram _ rfl) (fun _ k' hk' => ?_)
      fun _ _ h => h
    rw [hk']
    exact hmore
  | none =>
    refine follows_pure.mpr ?_
    dsimp only
    split
    · exact hmore
    split
    · exact hmore
    · refine follows_bind.mpr ⟨?_, fun begun hbegun => ?_⟩
      · show (k.begun ++ [(datagram, source)]).Sublist (done ++ (datagram, source) :: rest)
        have hlast : (k.begun ++ [(datagram, source)]).Sublist (done ++ [(datagram, source)]) := hk.append_right _
        refine hlast.trans ?_
        simp
      · obtain rfl : begun = none := hbegun
        exact hk.append_right _

theorem follows_dispatchAll (config : Config) (done rest : List (Bytes × Address)) (hk : k.begun.Sublist done) :
    Follows (protocol (done ++ rest)) (fun _ _ => True) (fun _ _ => False) (dispatchAll config rest : DriverM κ Unit) k := by
  induction rest generalizing done k with
  | nil => exact True.intro
  | cons datagram rest ih =>
    obtain ⟨datagram, source⟩ := datagram
    rw [dispatchAll]
    refine follows_bind.mpr (Follows.mono (follows_dispatch config hk) (fun _ k' hk' => ?_) fun _ _ h => h)
    have hrest := ih (done ++ [(datagram, source)]) hk'
    rw [List.append_assoc] at hrest
    exact hrest

end

end Protocol

/-! ## Costs -/

/-- What is queued for the sources of some datagrams. -/
def queued (replies : List ((Bytes × Address) × Reply)) : List (Address × Bytes) :=
  replies.filterMap fun reply => reply.2.packet.map (reply.1.2, ·)

/-- The connections that are tracked, and where they are routed to, are as before, and so is every connection that
no datagram was for. Each datagram has drawn at most one answer, to its source, a reset smaller than the datagram;
the resets were drawn from the budget. -/
structure Costless (datagrams : List (Bytes × Address)) (w w' : World κ σ (Validating ρ)) : Prop where
  routes : w'.driver.routes = w.driver.routes
  tracked : ∀ i : ℕ, (w'.driver.connections[i]?).isSome = (w.driver.connections[i]?).isSome
  others : ∀ i : ℕ, (∀ datagram ∈ datagrams, ∀ platform : Validating ρ,
    leadsTo (κ := κ) platform w.driver.routes datagram.1 ≠ some i) → w'.driver.connections[i]? = w.driver.connections[i]?
  answers : ∃ replies events, (replies.map (·.1)).Sublist datagrams ∧ (∀ reply ∈ replies, reply.2.Due reply.1.1) ∧
    w'.driver.outbox = w.driver.outbox ++ queued replies ∧ w'.driver.platform.log = w.driver.platform.log ++ events ∧
    Budgeted w.driver.platform.validation.resetBurst events ∧
    replies.filterMap (·.2.asReset) = events.filterMap ResetEvent.sent

/-- The same, on the way. -/
structure Spent (datagrams : List (Bytes × Address)) (w w' : World κ σ (Validating ρ)) (k : Progress) : Prop where
  routes : w'.driver.routes = w.driver.routes
  tracked : ∀ i : ℕ, (w'.driver.connections[i]?).isSome = (w.driver.connections[i]?).isSome
  others : ∀ i : ℕ, (∀ datagram ∈ datagrams, ∀ platform : Validating ρ,
    leadsTo (κ := κ) platform w.driver.routes datagram.1 ≠ some i) → w'.driver.connections[i]? = w.driver.connections[i]?
  working : ∀ i ∈ k.working, ∃ datagram ∈ datagrams, ∃ platform : Validating ρ,
    leadsTo (κ := κ) platform w.driver.routes datagram.1 = some i
  begun : k.begun.Sublist datagrams
  answers : ∃ replies events, replies.map (·.1) = k.begun ∧ (∀ reply ∈ replies, reply.2.Due reply.1.1) ∧
    w'.driver.outbox = w.driver.outbox ++ queued replies ∧ w'.driver.platform.log = w.driver.platform.log ++ events ∧
    Leaves w'.driver.platform.validation events ∧
    w'.driver.platform.validation.resetBurst = w.driver.platform.validation.resetBurst ∧
    replies.filterMap (·.2.asReset) = events.filterMap ResetEvent.sent

section Runs
variable {datagrams : List (Bytes × Address)} {k : Progress} {w'' : World κ σ (Validating ρ)} {index : ℕ}

omit [Transport κ] [Socket σ] in
theorem Spent.costless (h : Spent datagrams w w' k) : Costless datagrams w w' := by
  refine ⟨h.routes, h.tracked, h.others, ?_⟩
  obtain ⟨replies, events, hbegun, hdue, houtbox, hlog, hleaves, hburst, hsent⟩ := h.answers
  refine ⟨replies, events, ?_, hdue, houtbox, hlog, ?_, hsent⟩
  · rw [hbegun]
    exact h.begun
  · rw [← hburst]
    exact hleaves.toBudgeted

omit [Transport κ] [Socket σ] in
theorem Spent.spares (h : Spent datagrams w w' k) (hworking : k.working = some index) (hspares : Spares index w' w'') :
    Spent datagrams w w'' k where
  routes := hspares.routes.trans h.routes
  tracked i := (hspares.tracked i).trans (h.tracked i)
  others i hi := by
    have hne : i ≠ index := by
      rintro rfl
      obtain ⟨datagram, hmem, platform, hleads⟩ := h.working i hworking
      exact hi datagram hmem platform hleads
    exact (hspares.others i hne).trans (h.others i hi)
  working := h.working
  begun := h.begun
  answers := by
    rw [hspares.outbox, hspares.log, hspares.validation]
    exact h.answers

theorem spent_applyOp {β : Type} (op : Op κ β) (h : Spent datagrams w w' k) (hgood : Unvalidated op w')
    (hallowed : k.Allows datagrams op) :
    Expects op (w'.applyOp op).1 ∧ Spent datagrams w (w'.applyOp op).2 (k.next op (w'.applyOp op).1) := by
  cases op with
  | route datagram =>
    refine ⟨True.intro, h.routes, h.tracked, h.others, fun i hi => ?_, h.begun, h.answers⟩
    obtain ⟨source, hmem⟩ := hallowed
    refine ⟨(datagram, source), hmem, w'.driver.platform, ?_⟩
    rw [← h.routes]
    exact hi
  | begin datagram source =>
    obtain ⟨replies, events, hbegun, hdue, houtbox, hlog, hleaves, hburst, hsent⟩ := h.answers
    obtain ⟨v, reply, more, happly, hroutes, hconnections, hreply, houtbox', hlog', hleaves', hburst', hsent'⟩ :=
      applyOp_begin hgood hleaves
    rw [happly]
    refine ⟨rfl, hroutes.trans h.routes, fun i => ?_, fun i hi => ?_, h.working, hallowed,
      replies ++ [((datagram, source), reply)], events ++ more, ?_, ?_, ?_, ?_, hleaves', hburst'.trans hburst, ?_⟩
    · rw [hconnections]
      exact h.tracked i
    · rw [hconnections]
      exact h.others i hi
    · rw [List.map_append, hbegun]
      rfl
    · intro other hother
      rcases List.mem_append.mp hother with hother | hother
      · exact hdue other hother
      · rw [List.mem_singleton.mp hother]
        exact hreply
    · have hlast : queued [((datagram, source), reply)] = (reply.packet.map (source, ·)).toList := by
        cases reply
        all_goals rfl
      rw [houtbox', houtbox, ← hlast, List.append_assoc]
      exact congrArg _ List.filterMap_append.symm
    · rw [hlog', hlog, List.append_assoc]
    · have hlast : [((datagram, source), reply)].filterMap (·.2.asReset) = reply.asReset.toList := by
        cases reply
        all_goals rfl
      rw [List.filterMap_append, List.filterMap_append, hsent, hsent', hlast]
  | deliver index datagram => exact ⟨True.intro, h.spares hallowed.2.symm (spares_deliver w' index datagram)⟩
  | takeObserved index => exact ⟨True.intro, h.spares hallowed.2.symm (spares_takeObserved w' index)⟩
  | setRetained index => exact ⟨True.intro, h.spares hallowed.2.symm (spares_setRetained w' index)⟩
  | markEstablished index => exact ⟨True.intro, h.spares hallowed.2.symm (spares_modifySharedOf w' index _)⟩
  | handOver index => exact ⟨True.intro, h.spares hallowed.2.symm (spares_handOver w' index)⟩
  | putBack index observed => exact ⟨True.intro, h.spares hallowed.2.symm (spares_modifySharedOf w' index _)⟩
  | _ => cases hallowed.1

omit [Socket σ] [Transport κ] in
theorem spent_act (h : Spent datagrams w w' k) (action : Action) : Spent datagrams w (w'.act action) k := by
  have hdriver : (w'.act action).driver = w'.driver :=
    (show HandleStep (fun _ => True) w' (w'.act action) from handleStep_act action fun _ _ => True.intro).driver
  refine ⟨?_, fun i => ?_, fun i hi => ?_, h.working, h.begun, ?_⟩
  all_goals rw [hdriver]
  · exact h.routes
  · exact h.tracked i
  · exact h.others i hi
  · exact h.answers

/-- Datagrams whose tokens do not verify cost nothing, and a first packet is begun only with a token that does. -/
theorem unvalidated_costless (config : Config) (datagrams : List (Bytes × Address)) (w : World κ σ (Validating ρ))
    {choices : List (Choice Action)}
    (h : (dispatching config datagrams).Careful w Unvalidated (fun _ _ => True) choices) :
    Costless datagrams w ((dispatching config datagrams).reached w choices).state ∧
      ∀ (v : World κ σ (Validating ρ)) datagram source index,
        (v.applyOp (.begin datagram source : Op κ _)).1 = some index → ∃ packet original,
          Platform.inspectInitial (κ := κ) v.driver.platform datagram = some packet ∧
            verified v packet source = some original := by
  refine ⟨?_, fun v datagram source index hbegin => verified_of_begin hbegin⟩
  have hconduct : Conduct (dispatching config datagrams : System (Op κ) Error Unit (World κ σ (Validating ρ)) Action)
      (protocol datagrams) (fun _ => True) (fun _ => True) :=
    ⟨fun _ _ => True.intro, fun _ _ _ _ => True.intro⟩
  have hinit : Spent datagrams w w {} :=
    ⟨rfl, fun _ => rfl, fun _ _ => rfl, nofun, List.nil_sublist _, [], [], rfl, nofun, (List.append_nil _).symm,
      (List.append_nil _).symm, leaves_nil _, rfl, rfl⟩
  have hprogram := follows_dispatchAll (κ := κ) (k := {}) config [] datagrams (List.Sublist.refl _)
  have hadheres : Adheres (protocol datagrams) (Spent datagrams w) (fun _ => True) (fun _ => True) (fun _ _ => True) _ :=
    adheres_of_follows hconduct (fun op w' k hspent hgood hallowed => spent_applyOp op hspent hgood hallowed)
      (fun action w' k hspent _ => spent_act hspent action) hinit
      (Follows.mono hprogram (fun _ _ _ => True.intro) fun _ _ hfail => hfail.elim) h
  obtain ⟨k, hspent, -⟩ := hadheres
  exact hspent.costless

end Runs

end Datagrams

/-! ## Two strangers -/

open QuicScriptedHost

/-- A token says where it was sent and for which packets. -/
instance : TokenHelpers ScriptedPlatform where
  generateRetryToken _ version remote retryScid originalDcid _ platform :=
    (some (0xB6 :: UInt8.ofNat version :: UInt8.ofNat remote :: (retryScid ++ originalDcid)), platform)
  verifyRetryToken _ token version remote dcid _ _ :=
    let bound := 0xB6 :: UInt8.ofNat version :: UInt8.ofNat remote :: dcid
    if token.take bound.length = bound then some (token.drop bound.length) else none
  writeRetry _ _ dcid scid _ token := some (dcid ++ scid ++ token)
  resetToken secret cid := some ((cid ++ secret).take resetTokenLen)
  writeStatelessReset _ token random := .ok (random ++ token)
  fill len platform := (some ⟨List.replicate len 0, List.length_replicate⟩, platform)

def validating : Validating ScriptedPlatform where
  base := {}
  validation := { secret := ⟨List.replicate 16 7, by decide⟩ }

/-- A first packet without a token, and a packet of a connection that is not known. -/
def strangers : List (Bytes × Address) := [(0 :: List.replicate 25 1, 5), (List.replicate 30 9, 6)]

def answering : World ScriptedConn ScriptedSocket (Validating ScriptedPlatform) := built {} validating true

theorem unvalidated_costless_strangers :
    Costless strangers answering ((dispatching { accepts := true } strangers).reached answering (List.replicate 4 .own)).state := by
  refine (unvalidated_costless { accepts := true } strangers answering ?_).1
  apply careful_of_carefulFrom
  decide +kernel

end Ngnet.QuicAddressValidation
