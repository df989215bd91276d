import Ngnet.Http3Replay

/-!
# What becomes of a write offer

`write_next` obtains one offer of nghttp3 at most and disposes of it once: it commits what the backend
took of it, or drops it uncommitted. A stream that it blocks is in the list of blocked streams, and is
unblocked in every pass in which the backend pulls until `write_next` answers that there is no more.
-/

namespace Ngnet.Http3WriteOffers
open QmuxVarints QmuxStreams Http3Heads Http3Handles Http3Conn Http3Driver Http3Passes InterleavedPrograms
open OperationTraces Http3Operations Http3Replay
open QmuxConnection (Poll)
open QmuxHttp3Join (QuicEvent WriteOutcome)

variable {β ν η α : Type}

/-! ## Offers and their disposal -/

/-- How much of an offer is committed, where it is not dropped uncommitted. -/
def disposal (offer : Offer) : WriteOutcome → Option ℕ
  | .accepted taken => if taken = 0 ∧ 0 < offer.len then none else some (min taken offer.len)
  | .blocked | .gone => none

def obtainedBy : Performed (Op β ν) → Option Offer
  | ⟨.leave .writevStream _ _, .ok (some offer)⟩ => some offer
  | _ => none

def committedBy : Performed (Op β ν) → Option (Offer × ℕ)
  | ⟨.conn (.commit offer n), _⟩ => some (offer, n)
  | _ => none

/-- The offers that nghttp3 has made. -/
def obtained (t : List (Performed (Op β ν))) : List Offer := t.filterMap obtainedBy

/-- What was committed of which offers. -/
def committed (t : List (Performed (Op β ν))) : List (Offer × ℕ) := t.filterMap committedBy

/-- Only what the backend took is committed, once, and of the offer that was obtained. -/
def MayDispose (write : Offer → WriteOutcome) (k : List Offer × List (Offer × ℕ)) : Op β ν α → Prop
  | .conn (.commit offer n) => k = ([offer], []) ∧ disposal offer (write offer) = some n
  | .enter .writevStream => k = ([], [])
  | _ => True

/-- The offers so far, and what was committed of them. -/
def disposals (write : Offer → WriteOutcome) : Protocol (Op β ν) (List Offer × List (Offer × ℕ)) where
  next k op b := (k.1 ++ (obtainedBy ⟨op, b⟩).toList, k.2 ++ (committedBy ⟨op, b⟩).toList)
  allows k op := MayDispose write k op
  expects _ _ := True

/-- What the disposal of an offer commits. -/
def committing (offer : Offer) (outcome : WriteOutcome) : List (Offer × ℕ) :=
  ((disposal offer outcome).map fun n => (offer, n)).toList

section Disposals
variable [Nghttp3 ν] {write : Offer → WriteOutcome}

omit [Nghttp3 ν] in
theorem after_disposals (write : Offer → WriteOutcome) (offers : List Offer) (commits : List (Offer × ℕ))
    (t : List (Performed (Op β ν))) :
    after (disposals write) (offers, commits) t = (offers ++ obtained t, commits ++ committed t) := by
  induction t generalizing offers commits with
  | nil => simp [after, obtained, committed]
  | cons x t ih =>
    have hstep : after (disposals write) (offers, commits) (x :: t) =
        after (disposals write) (offers ++ (obtainedBy x).toList, commits ++ (committedBy x).toList) t := rfl
    rw [hstep, ih]
    cases hoffer : obtainedBy x <;> cases hcommit : committedBy x <;> simp [obtained, committed, hoffer, hcommit]

def offerOf : Except CoreError (Option Offer) → List Offer
  | .ok offer => offer.toList
  | .error _ => []

/-- What `write_next` answers, and what it has obtained and committed by then. -/
def Disposed (write : Offer → WriteOutcome) (offer : Option Offer) (k : List Offer × List (Offer × ℕ)) : Prop :=
  k = (offer.toList, (offer.map fun offer => committing offer (write offer)).getD [])

variable {E : Error → List Offer × List (Offer × ℕ) → Prop} {k : List Offer × List (Offer × ℕ)}

section
omit [Nghttp3 ν]

theorem follows_idle {γ : Type} {Q : γ → List Offer × List (Offer × ℕ) → Prop} {op : Op β ν α}
    {f : α → DriverM β ν γ} (hallows : MayDispose write k op) (hobtained : ∀ b, obtainedBy ⟨op, b⟩ = none)
    (hcommitted : ∀ b, committedBy ⟨op, b⟩ = none) (h : ∀ b, Follows (disposals write) Q E (f b) k) :
    Follows (disposals write) Q E (perform op >>= f) k := by
  refine follows_bind.mpr (follows_perform.mpr ⟨hallows, fun b _ => ?_⟩)
  have hnext : (disposals write).next k op b = k := by simp [disposals, hobtained, hcommitted]
  rw [hnext]
  exact h b

theorem follows_interact (tree : Native ν (Option Offer)) :
    Follows (disposals write) (fun answer k' => k' = (offerOf answer, [])) E
      (interact .writevStream tree : DriverM β ν _) ([], []) := by
  induction tree with
  | returns result raw =>
    refine follows_perform.mpr ⟨True.intro, fun answer _ => ?_⟩
    rcases answer with error | _ | offer
    · rfl
    · rfl
    · rfl
  | callback callback next ih => exact ⟨True.intro, fun _ _ => ih⟩
  | readData stream veccnt next ih => exact ⟨True.intro, fun answer _ => ih answer⟩

theorem follows_writevStream :
    Follows (disposals write) (fun answer k' => k' = (offerOf answer, [])) E
      (native .writevStream : DriverM β ν _) ([], []) := by
  rw [native]
  refine ⟨rfl, fun answer _ => ?_⟩
  cases answer with
  | error error => rfl
  | ok tree => exact follows_interact tree

theorem follows_pushBlocked (stream : StreamId) :
    Follows (disposals write) (fun _ k' => k' = k) E (pushBlocked stream : DriverM β ν Unit) k := by
  refine follows_perform.mpr ⟨True.intro, fun b _ => ?_⟩
  show (k.1 ++ [], k.2 ++ []) = k
  simp

theorem follows_dispose (offer : Offer) :
    Follows (disposals write) (fun _ k' => k' = ([offer], committing offer (write offer))) E
      (dispose offer (write offer) : DriverM β ν _) ([offer], []) := by
  cases houtcome : write offer with
  | blocked =>
    refine follows_bind.mpr ((follows_pushBlocked offer.stream).mono ?_ fun _ _ h => h)
    rintro _ _ rfl
    rfl
  | gone => rfl
  | accepted taken =>
    rw [dispose]
    split
    · rename_i hnothing
      refine follows_bind.mpr ((follows_pushBlocked offer.stream).mono ?_ fun _ _ h => h)
      rintro _ _ rfl
      simp [committing, disposal, hnothing]
    · rename_i hsomething
      have hdisposal : disposal offer (write offer) = some (min taken offer.len) := by
        simp [houtcome, disposal, hsomething]
      have hcommits : committing offer (.accepted taken) = [(offer, min taken offer.len)] := by
        rw [committing, ← houtcome, hdisposal]
        rfl
      rw [hcommits]
      refine follows_bind.mpr (follows_perform.mpr ⟨⟨rfl, hdisposal⟩, fun result _ => ?_⟩)
      dsimp only
      split
      · refine follows_bind.mpr ((follows_pushBlocked offer.stream).mono ?_ fun _ _ h => h)
        rintro _ _ rfl
        rfl
      · rfl

end

theorem follows_given (offers : Offers) (offer : Offer) (result : Except CoreError Unit) :
    Follows (disposals write) (fun _ k' => k' = ([offer], committing offer (write offer))) E
      (match result with
        | .error error => pure (false, { offers with failure := some (ofCore ν error) })
        | .ok () => pure (true, offers) : DriverM β ν (Bool × Offers))
      ([offer], committing offer (write offer)) := by
  cases result with
  | error error => rfl
  | ok => rfl

theorem follows_shutdown (offers : Offers) (offer : Offer) (gone : Bool) (result : Except CoreError Unit) :
    Follows (disposals write) (fun _ k' => k' = ([offer], committing offer (write offer))) E
      (match result with
        | .error error => pure (false, { offers with failure := some (ofCore ν error) })
        | .ok () => do
          match ← if gone then perform (.conn (.shutdownStreamWrite offer.stream)) else pure (.ok ()) with
          | .error error => pure (false, { offers with failure := some (ofCore ν error) })
          | .ok () => pure (true, offers) : DriverM β ν (Bool × Offers))
      ([offer], committing offer (write offer)) := by
  cases result with
  | error error => rfl
  | ok =>
    cases gone with
    | true => exact follows_idle True.intro (fun _ => rfl) (fun _ => rfl) (follows_given offers offer)
    | false => rfl

theorem follows_applyOffer (offers : Offers) (offer : Offer) :
    Follows (disposals write) (fun _ k' => k' = ([offer], committing offer (write offer))) E
      (applyOffer offers offer (write offer) : DriverM β ν _) ([offer], []) := by
  rw [applyOffer]
  refine follows_bind.mpr ((follows_dispose offer).mono ?_ fun _ _ h => h)
  rintro ⟨_ | ⟨⟨⟩⟩, block, gone⟩ _ rfl
  · rfl
  cases block with
  | true => exact follows_idle True.intro (fun _ => rfl) (fun _ => rfl) (follows_shutdown offers offer gone)
  | false => exact follows_shutdown offers offer gone (.ok ())

omit [Nghttp3 ν] in
theorem follows_unblockAll (streams : List StreamId) :
    Follows (disposals write) (fun _ k' => k' = k) E (unblockAll streams : DriverM β ν _) k := by
  induction streams with
  | nil => rfl
  | cons stream rest ih =>
    refine follows_idle True.intro (fun _ => rfl) (fun _ => rfl) fun result => ?_
    rcases result with error | ⟨⟩
    · rfl
    · exact ih

theorem follows_writeNext (n : ℕ) (offers : Offers) :
    Follows (disposals write) (fun answer k' => Disposed write answer.1 k') E
      (writeNext write n offers : DriverM β ν _) ([], []) := by
  induction n generalizing offers with
  | zero => rfl
  | succ n ih =>
    rw [writeNext]
    dsimp only
    split
    · rfl
    refine follows_bind.mpr (follows_writevStream.mono ?_ fun _ _ h => h)
    rintro (error | _ | offer) _ rfl
    · rfl
    · refine follows_idle True.intro (fun _ => rfl) (fun _ => rfl) fun empty => ?_
      split
      · rfl
      refine follows_idle True.intro (fun _ => rfl) (fun _ => rfl) fun streams => ?_
      refine follows_bind.mpr ((follows_unblockAll streams).mono ?_ fun _ _ h => h)
      rintro (error | ⟨⟩) _ rfl
      · rfl
      · exact ih _
    · refine follows_bind.mpr ((follows_applyOffer offers offer).mono ?_ fun _ _ h => h)
      rintro _ _ rfl
      rfl

theorem disposed_of_leads {n : ℕ} {offers : Offers} {t : List (Performed (Op β ν))}
    {q : DriverM β ν (Option Offer × Bool × Offers)} (h : Leads (writeNext write n offers) t q) :
    (∀ offer accepted, (offer, accepted) ∈ committed t →
      offer ∈ obtained t ∧ disposal offer (write offer) = some accepted) ∧
    ∀ offer more offers', q = .done (offer, more, offers') → Disposed write offer (obtained t, committed t) := by
  have hfollows : Follows (disposals write) (fun answer k' => Disposed write answer.1 k') (fun _ _ => True)
      (writeNext write n offers : DriverM β ν _) ([], []) := follows_writeNext n offers
  constructor
  · intro offer accepted hcommit
    obtain ⟨x, hx, hcommitted⟩ := List.mem_filterMap.mp hcommit
    obtain ⟨before, rest, rfl⟩ := List.append_of_mem hx
    have hallows := allows_of_leads hfollows (fun _ _ => True.intro) h
    rw [after_disposals, List.nil_append, List.nil_append] at hallows
    obtain ⟨op, answer⟩ := x
    cases op with
    | conn call =>
      cases call with
      | commit offer' accepted' =>
        have hpair : (offer', accepted') = (offer, accepted) := Option.some.inj hcommitted
        cases hpair
        obtain ⟨hk, hdisposal⟩ := hallows
        have hobtained : obtained before = [offer] := congrArg Prod.fst hk
        refine ⟨?_, hdisposal⟩
        simp only [obtained, List.filterMap_append, List.mem_append] at hobtained ⊢
        simp [hobtained]
      | _ => cases hcommitted
    | _ => cases hcommitted
  · rintro offer more offers' rfl
    have hleft := follows_leads hfollows (fun _ _ => True.intro) h
    rwa [after_disposals, List.nil_append, List.nil_append] at hleft

end Disposals

/-! ## Blocked streams -/

def heldStep (held : List StreamId) : Performed (Op β ν) → List StreamId
  | ⟨.conn (.blockStream stream), .ok ()⟩ => stream :: held
  | ⟨.conn (.unblockStream stream), .ok ()⟩ => held.filter (· ≠ stream)
  | _ => held

/-- The streams that were blocked and not unblocked since. -/
def held (t : List (Performed (Op β ν))) : List StreamId := t.foldl heldStep []

def unblockedBy : Performed (Op β ν) → Option StreamId
  | ⟨.conn (.unblockStream stream), .ok ()⟩ => some stream
  | _ => none

def unblocked (t : List (Performed (Op β ν))) : List StreamId := t.filterMap unblockedBy

/-- A call failed that should have unblocked a stream. -/
def unblockFails : Performed (Op β ν) → Bool
  | ⟨.conn (.unblockStream _), .error _⟩ => true
  | _ => false

def isUnblock : Op β ν α → Bool
  | .conn (.unblockStream _) => true
  | _ => false

/-- The driver's variables, the streams that are blocked, those that were unblocked and whether such a
call has failed. -/
structure Ledger where
  locals : Locals
  held : List StreamId
  unblocked : List StreamId
  failed : Bool

namespace Ledger

def step (x : Ledger) (y : Performed (Op β ν)) : Ledger where
  locals := localsStep x.locals y
  held := heldStep x.held y
  unblocked := match unblockedBy y with
    | some stream => stream :: x.unblocked
    | none => x.unblocked
  failed := match unblockFails y with
    | true => true
    | false => x.failed

/-- Every blocked stream is in the driver's list. -/
def Listed (x : Ledger) : Prop := x.failed = false → ∀ stream ∈ x.held, stream ∈ x.locals.blocked

end Ledger

/-- `I` holds of the ledger, if the operations on the driver's variables have answered what they say. -/
def Live (I : Ledger → Prop) (k : Option Ledger) : Prop := ∀ x, k = some x → I x

open Classical in
/-- The ledger along a program. Every blocked stream is listed, except while streams are unblocked. -/
noncomputable def ledger : Protocol (Op β ν) (Option Ledger) where
  next k op b := k.bind fun x => if Answers x.locals ⟨op, b⟩ then some (x.step ⟨op, b⟩) else none
  allows k op := isUnblock op = false → Live Ledger.Listed k
  expects _ _ := True

theorem after_ledger {x : Ledger} {t : List (Performed (Op β ν))} (h : Honest x.locals t) :
    after ledger (some x) t = some (t.foldl Ledger.step x) := by
  induction t generalizing x with
  | nil => rfl
  | cons y t ih =>
    have hnext : after ledger (some x) (y :: t) = after ledger (some (x.step y)) t := by
      simp only [after, List.foldl_cons, ledger, Option.bind_some]
      rw [if_pos h.1]
    rw [hnext, ih h.2]
    rfl

theorem foldl_ledger (t : List (Performed (Op β ν))) (x : Ledger) :
    t.foldl Ledger.step x = ⟨localsAfter x.locals t, t.foldl heldStep x.held, (unblocked t).reverse ++ x.unblocked,
      x.failed || t.any unblockFails⟩ := by
  induction t generalizing x with
  | nil => simp [localsAfter, unblocked]
  | cons y t ih =>
    rw [List.foldl_cons, ih]
    cases hunblocked : unblockedBy y <;> cases hfails : unblockFails y <;> cases hfailed : x.failed <;>
      simp [Ledger.step, localsAfter, unblocked, hunblocked, hfails, hfailed]

section Ledgers
variable {γ : Type} {Q : γ → Option Ledger → Prop} {E : Error → Option Ledger → Prop} {I J : Ledger → Prop}
  {k : Option Ledger}

theorem Live.mono (h : Live I k) (hIJ : ∀ x, I x → J x) : Live J k := fun x hx => hIJ x (h x hx)

theorem follows_record {op : Op β ν α} {f : α → DriverM β ν γ} (hk : Live I k)
    (hallows : isUnblock op = false → ∀ x, I x → x.Listed)
    (hf : ∀ b k', Live (fun x' => ∃ x, I x ∧ Answers x.locals ⟨op, b⟩ ∧ x' = x.step ⟨op, b⟩) k' →
      Follows ledger Q E (f b) k') : Follows ledger Q E (perform op >>= f) k := by
  refine follows_bind.mpr (follows_perform.mpr ⟨fun hop => hk.mono (hallows hop), fun b _ => hf b _ ?_⟩)
  intro x' hx'
  cases k with
  | none => cases hx'
  | some x =>
    simp only [ledger, Option.bind_some] at hx'
    split at hx'
    · rename_i hanswers
      exact ⟨x, hk x rfl, hanswers, (Option.some.inj hx').symm⟩
    · cases hx'

/-- The ledgers agree on the streams. -/
structure Agree (x x' : Ledger) : Prop where
  blocked : x'.locals.blocked = x.locals.blocked := by rfl
  held : x'.held = x.held := by rfl
  unblocked : x'.unblocked = x.unblocked := by rfl
  failed : x'.failed = x.failed := by rfl

/-- Where `write_next` stands with the streams `wanted`, which were blocked when the pass began: they are
still in the list or have been unblocked, all of them once it has retried. Nothing has `failed` unless it
is stashed. -/
structure Standing (wanted : List StreamId) (failed : Bool) (offers : Offers) (x : Ledger) : Prop where
  listed : x.Listed
  owed : x.failed = false → ∀ stream ∈ wanted, stream ∈ x.locals.blocked ∨ stream ∈ x.unblocked
  retried : x.failed = false → offers.retried = true → ∀ stream ∈ wanted, stream ∈ x.unblocked
  spared : offers.failure = none → x.failed = failed

variable {wanted : List StreamId} {failed : Bool} {offers : Offers}

variable {x : Ledger}

theorem Standing.of_agree {x' : Ledger} (h : Standing wanted failed offers x) (hagree : Agree x x') :
    Standing wanted failed offers x' := by
  obtain ⟨hblocked, hheld, hunblocked, hfailed⟩ := hagree
  obtain ⟨hlisted, howed, hretried, hspared⟩ := h
  constructor
  · rw [Ledger.Listed, hfailed, hheld, hblocked]
    exact hlisted
  · rw [hfailed, hblocked, hunblocked]
    exact howed
  · rw [hfailed, hunblocked]
    exact hretried
  · rw [hfailed]
    exact hspared

theorem Standing.stash (h : Standing wanted failed offers x) (error : Error) :
    Standing wanted failed { offers with failure := some error } x :=
  ⟨h.listed, h.owed, h.retried, nofun⟩

theorem follows_agreeing {op : Op β ν α} {f : α → DriverM β ν γ} (hk : Live (Standing wanted failed offers) k)
    (hagree : ∀ x b, Agree x (x.step ⟨op, b⟩))
    (hf : ∀ b k', Live (Standing wanted failed offers) k' → Follows ledger Q E (f b) k') :
    Follows ledger Q E (perform op >>= f) k := by
  refine follows_record hk (fun _ x hx => hx.listed) fun b k' hk' => hf b k' ?_
  rintro x' hx'
  obtain ⟨x, hx, -, rfl⟩ := hk' x' hx'
  exact hx.of_agree (hagree x b)

theorem standing_interact {call : NativeCall γ} (tree : Native ν γ) (hk : Live (Standing wanted failed offers) k) :
    Follows ledger (fun _ k' => Live (Standing wanted failed offers) k') E
      (interact call tree : DriverM β ν (Except CoreError γ)) k := by
  induction tree generalizing k with
  | returns result raw =>
    show Follows ledger _ E (perform (.leave call result raw) >>= pure) k
    exact follows_agreeing hk (fun _ _ => {}) fun _ _ hk' => hk'
  | callback callback next ih => exact follows_agreeing hk (fun _ _ => {}) fun _ _ hk' => ih hk'
  | readData stream veccnt next ih => exact follows_agreeing hk (fun _ _ => {}) fun answer _ hk' => ih answer hk'

theorem standing_native (call : NativeCall γ) (hk : Live (Standing wanted failed offers) k) :
    Follows ledger (fun _ k' => Live (Standing wanted failed offers) k') E
      (native call : DriverM β ν (Except CoreError γ)) k := by
  rw [native]
  refine follows_agreeing hk (fun _ _ => {}) fun answer k' hk' => ?_
  cases answer with
  | error error => exact hk'
  | ok tree => exact standing_interact tree hk'

theorem standing_pushBlocked (stream : StreamId) (hk : Live (Standing wanted failed offers) k) :
    Follows ledger (fun _ => Live fun x => Standing wanted failed offers x ∧ stream ∈ x.locals.blocked) E
      (pushBlocked stream : DriverM β ν Unit) k := by
  show Follows ledger _ E (perform _ >>= pure) k
  refine follows_record hk (fun _ x hx => hx.listed) fun b k' hk' => ?_
  rintro x' hx'
  obtain ⟨x, hx, -, rfl⟩ := hk' x' hx'
  refine ⟨⟨fun hfailed s hs => ?_, fun hfailed s hs => ?_, hx.retried, hx.spared⟩, ?_⟩
  · exact List.mem_append_left _ (hx.listed hfailed s hs)
  · exact (hx.owed hfailed s hs).imp_left (List.mem_append_left _)
  · exact List.mem_append_right _ (List.mem_singleton_self stream)

theorem standing_dispose (offer : Offer) (outcome : WriteOutcome) (hk : Live (Standing wanted failed offers) k) :
    Follows ledger (fun answer => Live fun x => Standing wanted failed offers x ∧
        (answer.2.1 = true → offer.stream ∈ x.locals.blocked)) E
      (dispose offer outcome : DriverM β ν _) k := by
  have hpush : ∀ {k : Option Ledger} (result : Except CoreError Unit), Live (Standing wanted failed offers) k →
      Follows ledger (fun answer => Live fun x => Standing wanted failed offers x ∧
          (answer.2.1 = true → offer.stream ∈ x.locals.blocked)) E
        (do pushBlocked offer.stream; pure (result, true, false) : DriverM β ν _) k := by
    intro k result hk
    refine follows_bind.mpr ((standing_pushBlocked offer.stream hk).mono (fun _ k' hk' => ?_) fun _ _ h => h)
    exact hk'.mono fun x hx => ⟨hx.1, fun _ => hx.2⟩
  cases outcome with
  | blocked => exact hpush (.ok ()) hk
  | gone => exact hk.mono fun x hx => ⟨hx, by rintro ⟨⟩⟩
  | accepted taken =>
    rw [dispose]
    split
    · exact hpush (.ok ()) hk
    · refine follows_agreeing hk (fun _ _ => {}) fun result k' hk' => ?_
      dsimp only
      split
      · rename_i hshort
        rw [decide_eq_true hshort]
        exact hpush result hk'
      · rename_i hwhole
        rw [decide_eq_false hwhole]
        exact hk'.mono fun x hx => ⟨hx, by rintro ⟨⟩⟩

theorem standing_given [Nghttp3 ν] (result : Except CoreError Unit) (hk : Live (Standing wanted failed offers) k) :
    Follows ledger (fun answer k' => Live (Standing wanted failed answer.2) k' ∧
        (answer.1 = false → answer.2.failure ≠ none)) E
      (match result with
        | .error error => pure (false, { offers with failure := some (ofCore ν error) })
        | .ok () => pure (true, offers) : DriverM β ν (Bool × Offers)) k := by
  cases result with
  | error error => exact ⟨hk.mono fun x hx => hx.stash _, by simp⟩
  | ok => exact ⟨hk, by simp⟩

theorem standing_shutdown [Nghttp3 ν] (offer : Offer) (gone : Bool) (result : Except CoreError Unit)
    (hk : Live (Standing wanted failed offers) k) :
    Follows ledger (fun answer k' => Live (Standing wanted failed answer.2) k' ∧
        (answer.1 = false → answer.2.failure ≠ none)) E
      (match result with
        | .error error => pure (false, { offers with failure := some (ofCore ν error) })
        | .ok () => do
          match ← if gone then perform (.conn (.shutdownStreamWrite offer.stream)) else pure (.ok ()) with
          | .error error => pure (false, { offers with failure := some (ofCore ν error) })
          | .ok () => pure (true, offers) : DriverM β ν (Bool × Offers)) k := by
  cases result with
  | error error => exact ⟨hk.mono fun x hx => hx.stash _, by simp⟩
  | ok =>
    cases gone with
    | true => exact follows_agreeing hk (fun _ _ => {}) fun given k' hk' => standing_given given hk'
    | false => exact standing_given (.ok ()) hk

theorem standing_applyOffer [Nghttp3 ν] (offer : Offer) (outcome : WriteOutcome)
    (hk : Live (Standing wanted failed offers) k) :
    Follows ledger (fun answer k' => Live (Standing wanted failed answer.2) k' ∧
        (answer.1 = false → answer.2.failure ≠ none)) E
      (applyOffer offers offer outcome : DriverM β ν _) k := by
  rw [applyOffer]
  refine follows_bind.mpr ((standing_dispose offer outcome hk).mono ?_ fun _ _ h => h)
  rintro ⟨_ | ⟨⟨⟩⟩, block, gone⟩ k' hk'
  · exact ⟨hk'.mono fun x hx => hx.1.stash _, by simp⟩
  cases block with
  | true =>
    refine follows_record hk' (fun _ x hx => hx.1.listed) fun result k'' hk'' => standing_shutdown offer gone result ?_
    rintro x' hx'
    obtain ⟨x, ⟨hx, hlisted⟩, -, rfl⟩ := hk'' x' hx'
    rcases result with error | ⟨⟩
    · exact hx.of_agree {}
    · refine ⟨fun hfailed s hs => ?_, hx.owed, hx.retried, hx.spared⟩
      rcases List.mem_cons.mp hs with rfl | hs
      · exact hlisted rfl
      · exact hx.listed hfailed s hs
  | false => exact standing_shutdown offer gone (.ok ()) (hk'.mono fun x hx => hx.1)

/-- The same while `streams`, which were taken out of the list, are being unblocked. -/
structure Unblocking (wanted : List StreamId) (failed : Bool) (streams : List StreamId) (x : Ledger) : Prop where
  listed : x.failed = false → ∀ stream ∈ x.held, stream ∈ streams
  owed : x.failed = false → ∀ stream ∈ wanted, stream ∈ streams ∨ stream ∈ x.unblocked
  spared : x.failed = failed

theorem Unblocking.standing (h : Unblocking wanted failed [] x) (offers : Offers) :
    Standing wanted failed offers x where
  listed hfailed s hs := nomatch h.listed hfailed s hs
  owed hfailed s hs := (h.owed hfailed s hs).imp_left fun hs => nomatch hs
  retried hfailed _ s hs := (h.owed hfailed s hs).resolve_left fun hs => nomatch hs
  spared _ := h.spared

theorem standing_of_failed (h : x.failed = true) (hfailure : offers.failure ≠ none) :
    Standing wanted failed offers x where
  listed hfailed := by simp [h] at hfailed
  owed hfailed := by simp [h] at hfailed
  retried hfailed := by simp [h] at hfailed
  spared hnone := absurd hnone hfailure

theorem unblocking_unblockAll (streams : List StreamId) (hk : Live (Unblocking wanted failed streams) k) :
    Follows ledger (fun answer k' => match answer with
        | .ok () => Live (Unblocking wanted failed []) k'
        | .error _ => Live (fun x => x.failed = true) k') E
      (unblockAll streams : DriverM β ν _) k := by
  induction streams generalizing k with
  | nil => exact hk
  | cons stream rest ih =>
    rw [unblockAll]
    refine follows_record hk (fun hop => nomatch hop) fun result k' hk' => ?_
    rcases result with error | ⟨⟩
    · rintro x' hx'
      obtain ⟨x, hx, -, rfl⟩ := hk' x' hx'
      rfl
    · refine ih fun x' hx' => ?_
      obtain ⟨x, hx, -, rfl⟩ := hk' x' hx'
      refine ⟨fun hfailed s hs => ?_, fun hfailed s hs => ?_, hx.spared⟩
      · obtain ⟨hs, hne⟩ := List.mem_filter.mp hs
        exact (List.mem_cons.mp (hx.listed hfailed s hs)).resolve_left (of_decide_eq_true hne)
      · rcases hx.owed hfailed s hs with hs | hs
        · rcases List.mem_cons.mp hs with rfl | hs
          · exact .inr (List.mem_cons_self ..)
          · exact .inl hs
        · exact .inr (List.mem_cons_of_mem _ hs)

/-- What stands behind a call of `write_next`: if it answered that there is no more, and has not failed,
every stream that was wanted has been unblocked. -/
def Written (wanted : List StreamId) (failed : Bool) (answer : Option Offer × Bool × Offers) (x : Ledger) : Prop :=
  Standing wanted failed answer.2.2 x ∧
    (answer.2.1 = false → answer.2.2.failure = none → x.failed = false → ∀ stream ∈ wanted, stream ∈ x.unblocked)

theorem written_turn [Nghttp3 ν] {write : Offer → WriteOutcome} {n : ℕ} (hk : Live (Standing wanted failed offers) k)
    (hretry : offers.retried = false → ∀ k', Live (Standing wanted failed { offers with retried := true }) k' →
      Follows ledger (fun answer => Live (Written wanted failed answer)) E
        (writeNext write n { offers with retried := true } : DriverM β ν _) k') :
    Follows ledger (fun answer => Live (Written wanted failed answer)) E
      (writeNext write (n + 1) offers : DriverM β ν _) k := by
  rw [writeNext]
  dsimp only
  split
  · rename_i hfailure
    exact hk.mono fun x hx => ⟨hx, fun _ hnone => absurd hnone (Option.isSome_iff_ne_none.mp hfailure)⟩
  rename_i hfailure
  have hnone : offers.failure = none := by simpa using hfailure
  refine follows_bind.mpr ((standing_native .writevStream hk).mono ?_ fun _ _ h => h)
  rintro (error | _ | offer) k hk
  · exact hk.mono fun x hx => ⟨hx.stash _, fun _ => by simp⟩
  · refine follows_record hk (fun _ x hx => hx.listed) fun empty k' hk' => ?_
    have hk' : Live (fun x => Standing wanted failed offers x ∧ empty = x.locals.blocked.isEmpty) k' := by
      rintro x' hx'
      obtain ⟨x, hx, hanswers, rfl⟩ := hk' x' hx'
      exact ⟨hx.of_agree {}, hanswers⟩
    split
    · rename_i hdry
      refine hk'.mono fun x hx => ⟨hx.1, fun _ _ hfailed s hs => ?_⟩
      cases hretried : offers.retried with
      | true => exact hx.1.retried hfailed hretried s hs
      | false =>
        have hempty : x.locals.blocked = [] := by simpa [hretried, hx.2] using hdry
        exact (hx.1.owed hfailed s hs).resolve_left (by simp [hempty])
    · rename_i hmore
      have hretried : offers.retried = false := by
        cases hretried : offers.retried with
        | true => simp [hretried] at hmore
        | false => rfl
      refine follows_record hk' (fun _ x hx => hx.1.listed) fun streams k'' hk'' => ?_
      have hk'' : Live (Unblocking wanted failed streams) k'' := by
        rintro x' hx'
        obtain ⟨x, ⟨hx, -⟩, rfl, rfl⟩ := hk'' x' hx'
        exact ⟨hx.listed, hx.owed, hx.spared hnone⟩
      refine follows_bind.mpr ((unblocking_unblockAll streams hk'').mono ?_ fun _ _ h => h)
      rintro (error | ⟨⟩) k hk
      · exact hk.mono fun x hx => ⟨standing_of_failed hx (by simp), fun _ => by simp⟩
      · exact hretry hretried k (hk.mono fun x hx => hx.standing _)
  · refine follows_bind.mpr ((standing_applyOffer offer (write offer) hk).mono ?_ fun _ _ h => h)
    rintro ⟨more, offers'⟩ k ⟨hk, hmore⟩
    exact hk.mono fun x hx => ⟨hx, fun hfalse hnone => absurd hnone (hmore hfalse)⟩

theorem written_writeNext [Nghttp3 ν] {write : Offer → WriteOutcome} (n : ℕ)
    (hk : Live (Standing wanted failed offers) k) :
    Follows ledger (fun answer => Live (Written wanted failed answer)) E
      (writeNext write (n + 2) offers : DriverM β ν _) k :=
  written_turn hk fun _ _ hk' => written_turn hk' nofun

end Ledgers

/-! ## The retry -/

section Retry
variable [Nghttp3 ν] (write : Offer → WriteOutcome)

theorem writeNext_retried {offers : Offers} (h : offers.retried = true) (n : ℕ) :
    (writeNext write (n + 1) offers : DriverM β ν _) = writeNext write 1 offers := by
  rw [writeNext, writeNext]
  refine congrArg (ite (offers.failure.isSome = true) _) (congrArg (native .writevStream >>= ·) (funext fun answer => ?_))
  rcases answer with error | _ | offer
  · rfl
  · refine congrArg (perform _ >>= ·) (funext fun empty => ?_)
    rw [h]
    rfl
  · rfl

theorem writeNext_fuel (offers : Offers) (n : ℕ) :
    (writeNext write (n + 2) offers : DriverM β ν _) = writeNext write 2 offers := by
  rw [writeNext, writeNext]
  refine congrArg (ite (offers.failure.isSome = true) _) (congrArg (native .writevStream >>= ·) (funext fun answer => ?_))
  rcases answer with error | _ | offer
  · rfl
  · refine congrArg (perform _ >>= ·) (funext fun empty => ?_)
    refine congrArg (ite ((offers.retried || empty) = true) _) (congrArg (perform _ >>= ·) (funext fun streams => ?_))
    refine congrArg (unblockAll streams >>= ·) (funext fun result => ?_)
    rcases result with error | ⟨⟩
    · rfl
    · exact writeNext_retried write rfl n
  · rfl

end Retry

/-! ## Until there is no more to write -/

section Dry
variable [Nghttp3 ν]

/-- The backend pulls until `write_next` answers that there is no more, with these operations. -/
inductive PulledDry : Transmit β → Offers → List (Performed (Op β ν)) → Prop
  | dry {write : Offer → WriteOutcome} {next : Option Offer → Bool → Transmit β} {offers offers' : Offers}
      {offer : Option Offer} {t : List (Performed (Op β ν))}
      (h : Leads (writeNext write 2 offers) t (.done (offer, false, offers'))) (hfailure : offers'.failure = none) :
      PulledDry (.pull write next) offers t
  | more {write : Offer → WriteOutcome} {next : Option Offer → Bool → Transmit β} {offers offers' : Offers}
      {offer : Option Offer} {more : Bool} {t t' : List (Performed (Op β ν))}
      (h : Leads (writeNext write 2 offers) t (.done (offer, more, offers')))
      (hrest : PulledDry (next offer more) offers' t') : PulledDry (.pull write next) offers (t ++ t')

/-- The same in one of the calls of `poll_transmit` that a pass makes, one for each time it is woken. -/
inductive TransmittedDry : Offers → List (Performed (Op β ν)) → Prop
  | now {tree : Transmit β} {offers : Offers} {t : List (Performed (Op β ν))} (h : PulledDry tree offers t) :
      TransmittedDry offers (⟨.enterTransmit, tree⟩ :: t)
  | later {tree : Transmit β} {offers offers' : Offers} {t t' t'' : List (Performed (Op β ν))}
      (h : Leads (transmitWith tree offers) t (.done (.pending, offers')))
      (hflush : Leads flushBeforePending t' (.done ())) (hrest : TransmittedDry offers' t'') :
      TransmittedDry offers (⟨.enterTransmit, tree⟩ :: (t ++ (t' ++ t'')))

variable {wanted : List StreamId} {failed : Bool} {offers : Offers} {x : Ledger}

variable {t : List (Performed (Op β ν))}

section
omit [Nghttp3 ν]

theorem live_of_leads {γ : Type} {Q : γ → Ledger → Prop} {p : DriverM β ν γ} {a : γ}
    (h : Follows ledger (fun a => Live (Q a)) (fun _ _ => True) p (some x)) (hpath : Leads p t (.done a))
    (hhonest : Honest x.locals t) : Q a (t.foldl Ledger.step x) := by
  have hleft := follows_leads h (fun _ _ => True.intro) hpath
  rw [after_ledger hhonest] at hleft
  exact hleft _ rfl

theorem locals_foldl (t : List (Performed (Op β ν))) (x : Ledger) :
    (t.foldl Ledger.step x).locals = localsAfter x.locals t := by
  induction t generalizing x with
  | nil => rfl
  | cons y t ih => exact ih (x.step y)

theorem locals_foldl_step (y : Performed (Op β ν)) (t : List (Performed (Op β ν))) (x : Ledger) :
    localsAfter (localsStep x.locals y) t = (t.foldl Ledger.step (x.step y)).locals :=
  (locals_foldl t (x.step y)).symm

end

theorem unblocked_of_pulledDry {tree : Transmit β} (h : PulledDry tree offers t)
    (hx : Standing wanted failed offers x) (hhonest : Honest x.locals t) :
    (t.foldl Ledger.step x).failed = failed ∧ (failed = false →
      ∀ stream ∈ wanted, stream ∈ (t.foldl Ledger.step x).unblocked) := by
  induction h generalizing x with
  | dry h hfailure =>
    obtain ⟨hstanding, hdry⟩ := live_of_leads (written_writeNext 0 (fun _ hx' => Option.some.inj hx' ▸ hx)) h hhonest
    exact ⟨hstanding.spared hfailure, fun hfailed => hdry rfl hfailure ((hstanding.spared hfailure).trans hfailed)⟩
  | more h _ ih =>
    obtain ⟨hfirst, hrest⟩ := honest_append.mp hhonest
    obtain ⟨hstanding, -⟩ := live_of_leads (written_writeNext 0 (fun _ hx' => Option.some.inj hx' ▸ hx)) h hfirst
    rw [List.foldl_append]
    exact ih hstanding (locals_foldl _ x ▸ hrest)

theorem standing_transmitWith {E : Error → Option Ledger → Prop} (tree : Transmit β) {k : Option Ledger}
    (hk : Live (Standing wanted failed offers) k) :
    Follows ledger (fun answer => Live (Standing wanted failed answer.2)) E
      (transmitWith tree offers : DriverM β ν _) k := by
  induction tree generalizing offers k with
  | returns poll backend => exact follows_agreeing hk (fun _ _ => {}) fun _ _ hk' => hk'
  | pull write next ih =>
    refine follows_bind.mpr ((written_writeNext 0 hk).mono ?_ fun _ _ h => h)
    rintro ⟨offer, more, offers'⟩ k hk'
    exact ih _ _ (hk'.mono fun _ hx => hx.1)

omit [Nghttp3 ν] in
theorem standing_flushBeforePending {k : Option Ledger} (hk : Live (Standing wanted failed offers) k) :
    Follows ledger (fun _ => Live (Standing wanted failed offers)) (fun _ _ => True)
      (flushBeforePending : DriverM β ν Unit) k := by
  refine follows_agreeing hk (fun _ _ => {}) fun answer k' hk' => ?_
  split
  · exact True.intro
  · show Follows ledger _ _ (perform .await >>= pure) k'
    exact follows_agreeing hk' (fun _ _ => {}) fun _ _ h => h

omit [Nghttp3 ν] in
theorem agree_enterTransmit (x : Ledger) (tree : Transmit β) :
    Agree x (x.step (⟨.enterTransmit, tree⟩ : Performed (Op β ν))) := {}

theorem unblocked_of_transmittedDry (h : TransmittedDry offers t)
    (hx : Standing wanted failed offers x) (hhonest : Honest x.locals t) :
    (t.foldl Ledger.step x).failed = failed ∧ (failed = false →
      ∀ stream ∈ wanted, stream ∈ (t.foldl Ledger.step x).unblocked) := by
  induction h generalizing x with
  | now h =>
    rw [List.foldl_cons]
    exact unblocked_of_pulledDry h (hx.of_agree (agree_enterTransmit x _)) hhonest.2
  | @later tree _ _ _ _ _ h hflush _ ih =>
    obtain ⟨hfirst, hrest⟩ := honest_append.mp hhonest.2
    obtain ⟨hsecond, hrest⟩ := honest_append.mp hrest
    have hentered := hx.of_agree (agree_enterTransmit (ν := ν) x tree)
    have hpaused := live_of_leads (standing_transmitWith _ (fun _ hx' => Option.some.inj hx' ▸ hentered)) h hfirst
    rw [locals_foldl_step] at hsecond hrest
    have hwoken := live_of_leads (standing_flushBeforePending (fun _ hx' => Option.some.inj hx' ▸ hpaused)) hflush hsecond
    rw [← locals_foldl] at hrest
    rw [List.foldl_cons, List.foldl_append, List.foldl_append]
    exact ih hwoken hrest

end Dry

/-! ## Runs -/

/-- The calls of `write_next`. -/
inductive Writes [Nghttp3 ν] : ⦃γ : Type⦄ → DriverM β ν γ → Prop
  | call (write : Offer → WriteOutcome) (offers : Offers) : Writes (writeNext write 2 offers)

/-- The operation obtains, commits, blocks and unblocks nothing. -/
structure Unwritten ⦃α : Type⦄ (op : Op β ν α) : Prop where
  obtained : ∀ b, obtainedBy ⟨op, b⟩ = none := by exact fun _ => rfl
  committed : ∀ b, committedBy ⟨op, b⟩ = none := by exact fun _ => rfl
  agree : ∀ x b, Agree x (x.step ⟨op, b⟩) := by exact fun _ _ => {}

theorem everyday_unwritten : Everyday (β := β) (ν := ν) Unwritten where
  plain op h := by
    cases op with
    | conn call =>
      cases call with
      | commit | blockStream | unblockStream => cases h
      | _ => exact {}
    | await | enter | leave | locally | keepError | takeError | drainWork | refreshDriver | handlesGone => cases h
    | _ => exact {}
  locally f h := { agree := fun x _ => { blocked := (h x.locals).blocked } }

section Runs
variable [QuicConnection β] [Nghttp3 ν] [Handlers η] [Http] {role : Role} {config : Http3Passes.Config} {fuel : ℕ}
  {backend : β} {raw : ν} {handlers : η} {choices : List (Choice Common.Action)}

omit [QuicConnection β] in
theorem composed_of_writes : Composed (Writes (β := β) (ν := ν)) Unwritten (run role config fuel) := by
  have hday := everyday_unwritten (β := β) (ν := ν)
  have hlocals : ∀ {α : Type} (f : Locals → α × Locals), (∀ l, (f l).2.blocked = l.blocked) →
      Unwritten (.locally f : Op β ν α) := fun f h => { agree := fun x _ => { blocked := h x.locals } }
  have hrelease : ∀ stream bytes delivered,
      Composed (Writes (β := β) (ν := ν)) Unwritten (applyRelease stream bytes delivered : DriverM β ν Unit) :=
    fun _ _ _ => composed_applyRelease hday (fun _ _ => ⟨{}, fun _ _ => {}⟩) _ _ _
  have hclose : ∀ stream closed,
      Composed (Writes (β := β) (ν := ν)) Unwritten (closeStream stream closed : DriverM β ν Unit) :=
    fun _ _ => composed_closeStream hday (fun _ _ => ⟨{}, fun _ _ => {}⟩) (fun _ => hlocals _ fun _ => rfl) _ _
  have hread : ∀ stream bytes fin,
      Composed (Writes (β := β) (ν := ν)) Unwritten (Http3Passes.read stream bytes fin : DriverM β ν Unit) :=
    fun _ _ _ => composed_read hday (fun _ _ _ => ⟨{}, fun _ _ => {}⟩) _ _ _
  have hpushback : ∀ {α : Type} (f : Locals → α × Locals),
      (∀ l, (f l).2.closed = l.closed ∧ (f l).2.blocked = l.blocked) → Unwritten (.locally f : Op β ν α) :=
    fun f h => hlocals f fun l => (h l).2
  refine composed_run hday {} {} hclose (fun write offers => composed_call (.call write offers)) ?_ ?_
  · exact composed_park hday {} hpushback {} {} (fun _ => {}) role fuel false
  · refine composed_intake hday {} (composed_takeEvents {} hpushback {} config) fun events => ?_
    exact composed_applyEvents hday hrelease hclose hread role events

omit [QuicConnection β] [Http] in
theorem live_writeNext {E : Error → Option Ledger → Prop} {γ : Type} {p : DriverM β ν γ} (hp : Writes p)
    {k : Option Ledger} (hk : Live Ledger.Listed k) : Follows ledger (fun _ => Live Ledger.Listed) E p k := by
  cases hp with
  | call write offers =>
    have hstanding : ∃ failed, Live (Standing [] failed offers) k := by
      cases k with
      | none => exact ⟨false, nofun⟩
      | some x =>
        refine ⟨x.failed, fun x' hx' => ?_⟩
        obtain rfl := Option.some.inj hx'
        exact ⟨hk _ rfl, fun _ _ => nofun, fun _ _ _ => nofun, fun _ => rfl⟩
    obtain ⟨failed, hstanding⟩ := hstanding
    exact (written_writeNext 0 hstanding).mono (fun _ _ h => h.mono fun _ hx => hx.1.listed) fun _ _ h => h

omit [QuicConnection β] in
theorem live_run {k : Option Ledger} (hk : Live Ledger.Listed k) :
    Follows ledger (fun _ => Live Ledger.Listed) (fun _ => Live Ledger.Listed)
      (run role config fuel : DriverM β ν Unit) k := by
  refine follows_of_composed ?_ (fun _ _ hp hk => live_writeNext hp hk) composed_of_writes hk
  intro α op k hop hk
  refine ⟨fun _ => hk, fun b => ?_⟩
  intro x' hx'
  cases k with
  | none => cases hx'
  | some x =>
    simp only [ledger, Option.bind_some] at hx'
    split at hx'
    · obtain rfl := Option.some.inj hx'
      obtain ⟨hblocked, hheld, -, hfailed⟩ := hop.agree x b
      rw [Ledger.Listed, hfailed, hheld, hblocked]
      exact hk x rfl
    · cases hx'

/-- An offer that `write_next` answers with is the only one that it obtained, and is committed as far as
the backend took it, or not at all; a whole one is committed only if the backend took all of it. Nothing
else is ever committed. -/
structure DisposedOnce (write : Offer → WriteOutcome) (t : List (Performed (Op β ν)))
    (q : DriverM β ν (Option Offer × Bool × Offers)) : Prop where
  offer : ∀ offer more offers', q = .done (some offer, more, offers') →
    obtained t = [offer] ∧ committed t = committing offer (write offer)
  nothing : ∀ more offers', q = .done (none, more, offers') → obtained t = [] ∧ committed t = []
  committed : ∀ offer n, (offer, n) ∈ committed t → offer ∈ obtained t ∧ disposal offer (write offer) = some n
  whole : ∀ offer, (offer, offer.len) ∈ Http3WriteOffers.committed t →
    ∃ taken, write offer = .accepted taken ∧ offer.len ≤ taken

omit [QuicConnection β] [Http] in
theorem disposedOnce {write : Offer → WriteOutcome} {offers : Offers} {t : List (Performed (Op β ν))}
    {q : DriverM β ν (Option Offer × Bool × Offers)} (h : Leads (writeNext write 2 offers) t q) :
    DisposedOnce write t q := by
  obtain ⟨hcommitted, hdone⟩ := disposed_of_leads h
  refine ⟨fun offer more offers' hq => ?_, fun more offers' hq => ?_, hcommitted, fun offer hoffer => ?_⟩
  · exact Prod.mk.inj (hdone (some offer) more offers' hq)
  · exact Prod.mk.inj (hdone none more offers' hq)
  · have hwhole := (hcommitted offer offer.len hoffer).2
    cases houtcome : write offer with
    | accepted taken =>
      refine ⟨taken, rfl, ?_⟩
      rw [houtcome, disposal] at hwhole
      split at hwhole
      · cases hwhole
      · have := Option.some.inj hwhole
        omega
    | blocked => simp [houtcome, disposal] at hwhole
    | gone => simp [houtcome, disposal] at hwhole

/-- What is said of the offers of a run: they are obtained in calls of `write_next` only, each of which
disposes of its offer and retries once at most; as long as no call has failed that unblocks a stream, every
blocked stream is in the list of the driver whenever the driver is not unblocking its streams; and all of
them are unblocked in the transmission of a pass in which the backend pulls until there is no more. -/
structure OffersDisposed (role : Role) (config : Http3Passes.Config) (fuel : ℕ) (w : World β ν η)
    (choices : List (Choice Common.Action)) : Prop where
  calls : ∀ q, ((connection role config fuel).reached w choices).stage = .running q →
    Passage Writes Unwritten (run role config fuel) (trace (connection role config fuel) w choices) q
  disposed : ∀ (write : Offer → WriteOutcome) offers t (q : DriverM β ν _),
    Leads (writeNext write 2 offers) t q → DisposedOnce write t q
  retried : ∀ (write : Offer → WriteOutcome) offers n,
    (writeNext write (n + 2) offers : DriverM β ν _) = writeNext write 2 offers
  listed : ∀ {α : Type} (op : Op β ν α) next,
    ((connection role config fuel).reached w choices).stage = .running (.act op next) → isUnblock op = false →
    (trace (connection role config fuel) w choices).any unblockFails = false →
    ∀ stream ∈ held (trace (connection role config fuel) w choices),
      stream ∈ ((connection role config fuel).reached w choices).state.driver.locals.blocked
  unblocked : ∀ fuel' rest later t t', ((connection role config fuel).reached w choices).stage =
      .running (transmit (fuel' + 1) {} >>= rest) →
    (trace (connection role config fuel) w choices).any unblockFails = false →
    trace (connection role config fuel) w (choices ++ later) = trace (connection role config fuel) w choices ++ t ++ t' →
    TransmittedDry {} t → ∀ stream ∈ held (trace (connection role config fuel) w choices), stream ∈ unblocked t

theorem listed_reached {α : Type} {op : Op β ν α} {next : α → DriverM β ν Unit}
    (h : ((connection role config fuel).reached (newWorld role backend raw handlers) choices).stage =
      .running (.act op next)) (hop : isUnblock op = false) :
    Ledger.Listed ((trace (connection role config fuel) (newWorld role backend raw handlers) choices).foldl Ledger.step
      ⟨{}, [], [], false⟩) := by
  have hlive : Follows ledger (fun _ => Live Ledger.Listed) (fun _ => Live Ledger.Listed)
      (run role config fuel : DriverM β ν Unit) (some ⟨{}, [], [], false⟩) := live_run ?_
  have hfollows := follows_leads hlive (fun _ _ => True.intro) (leads_trace h)
  · rw [after_ledger locals_reached.1] at hfollows
    exact hfollows.1 hop _ rfl
  · rintro _ ⟨⟩ _ _ ⟨⟩

theorem offersDisposed_reached : OffersDisposed role config fuel (newWorld role backend raw handlers) choices where
  calls q h := composed_of_writes.passage (leads_trace h)
  disposed write offers t q h := disposedOnce h
  retried write offers n := writeNext_fuel write offers n
  listed op next h hop hfails := by
    have hlisted := listed_reached h hop
    rw [foldl_ledger] at hlisted
    rw [locals_reached.2]
    exact hlisted (by simpa using hfails)
  unblocked fuel' rest later t t' h hfails htrace hdry := by
    have hlisted := listed_reached h rfl
    have hhonest : Honest {} (trace (connection role config fuel) (newWorld role backend raw handlers) (choices ++ later)) :=
      locals_reached.1
    rw [htrace, honest_append, honest_append] at hhonest
    rw [foldl_ledger] at hlisted
    have hheld := hlisted (by simpa using hfails)
    intro stream hstream
    -- Only what is unblocked from here on counts.
    have hstanding : Standing (held (trace (connection role config fuel) (newWorld role backend raw handlers) choices))
        false {} ⟨localsAfter {} (trace (connection role config fuel) (newWorld role backend raw handlers) choices),
          held (trace (connection role config fuel) (newWorld role backend raw handlers) choices), [], false⟩ :=
      ⟨fun _ => hheld, fun _ s hs => .inl (hheld s hs), fun _ => nofun, fun _ => rfl⟩
    have hunblocked := (unblocked_of_transmittedDry hdry hstanding hhonest.1.2).2 rfl stream hstream
    rw [foldl_ledger] at hunblocked
    simpa using hunblocked

end Runs

end Ngnet.Http3WriteOffers
