import Ngnet.ListUpdates
import Ngnet.OriginPool

/-!
# One dial at a time

What every caller of a pool relies on while it dials or waits, as one invariant of the pool: a slot is `Dialing`
exactly as long as one caller holds its dial, and whoever is told to wait keeps the generation of a slot that is
`Dialing` until the bell is rung, behind which it looks again.
-/

namespace Ngnet.OriginPool
open ListUpdates

variable {ο ε : Type}

/-! ## Changing one caller -/

section Fields
variable (pool : Pool ο ε) (i j s s' : ℕ) (stage : Stage ε) (state : Dial ε)

@[simp] theorem move_slot : (pool.move i stage).slot s = pool.slot s := rfl
@[simp] theorem move_connections : (pool.move i stage).connections = pool.connections := rfl
@[simp] theorem move_closed : (pool.move i stage).closed = pool.closed := rfl
@[simp] theorem move_dials : (pool.move i stage).dials = pool.dials := rfl
@[simp] theorem move_failures : (pool.move i stage).failures = pool.failures := rfl

@[simp] theorem settle_connections : (pool.settle s state).connections = pool.connections := rfl
@[simp] theorem settle_closed : (pool.settle s state).closed = pool.closed := rfl
@[simp] theorem settle_dials : (pool.settle s state).dials = pool.dials := rfl
@[simp] theorem settle_failures : (pool.settle s state).failures = pool.failures := rfl

theorem move_get : (pool.move i stage).callers[j]? =
    if i = j then pool.callers[j]?.map fun c => { c with stage } else pool.callers[j]? := by
  simp only [Pool.move, List.getElem?_modify]
  split <;> simp

theorem settle_get : (pool.settle s state).callers[j]? =
    pool.callers[j]?.map fun c => { c with stage := c.stage.ring s } := by
  simp [Pool.settle]

theorem slot_modify (f : Slot ε → Slot ε) (slots : List (Slot ε)) :
    (slots.modify s f)[s']?.getD ({} : Slot ε) = if s = s' ∧ s' < slots.length then f (slots[s']?.getD {})
      else slots[s']?.getD {} := by
  rw [List.getElem?_modify]
  by_cases hs : s = s'
  · subst hs
    cases h : slots[s]? with
    | none =>
      have hlen := List.getElem?_eq_none_iff.mp h
      simp [show ¬ s < slots.length by omega]
    | some slot =>
      have := (List.getElem?_eq_some_iff.mp h).1
      simp [this]
  · simp [hs]

theorem settle_slot : (pool.settle s state).slot s' =
    if s = s' ∧ s' < pool.slots.length then { state, settled := (pool.slot s').settled + 1 } else pool.slot s' :=
  slot_modify s s' _ _

end Fields

namespace Stage

/-- Before it claims a dial, or does without. -/
def early : Stage ε → Bool
  | .entering | .registered | .deciding _ _ | .told _ _ | .subscribed _ _ | .parked _ _ _ => true
  | _ => false

/-- Whether it was told to wait for this slot, and has not decided since. -/
def hasWaited (s : ℕ) : Stage ε → Bool
  | .deciding slot waited => waited && slot == s
  | .told slot _ | .subscribed slot _ | .parked slot _ _ => slot == s
  | _ => false

section Ring
variable (s t : ℕ) (stage : Stage ε)

@[simp] theorem ring_slot : (stage.ring s).slot = stage.slot := by cases stage <;> rfl
@[simp] theorem ring_dial : (stage.ring s).dial = stage.dial := by cases stage <;> rfl
@[simp] theorem ring_waits : (stage.ring s).waits = stage.waits := by cases stage <;> rfl
@[simp] theorem ring_counted : (stage.ring s).counted = stage.counted := by cases stage <;> rfl
@[simp] theorem ring_result : (stage.ring s).result = stage.result := by cases stage <;> rfl
@[simp] theorem ring_early : (stage.ring s).early = stage.early := by cases stage <;> rfl
@[simp] theorem ring_hasWaited : (stage.ring s).hasWaited t = stage.hasWaited t := by cases stage <;> rfl

theorem ring_parked {g : ℕ} (h : stage.ring s = .parked t g false) : stage = .parked t g false ∧ s ≠ t := by
  cases stage with
  | parked t' g' woken =>
    simp only [ring, parked.injEq, Bool.or_eq_false_iff, beq_eq_false_iff_ne] at h
    obtain ⟨rfl, rfl, rfl, hne⟩ := h
    exact ⟨rfl, fun heq => hne heq.symm⟩
  | _ => cases h

end Ring

variable {stage : Stage ε} {s : ℕ}

theorem slot_of_hasWaited (h : stage.hasWaited s = true) : stage.slot = some s := by
  cases stage with
  | deciding slot waited => exact congrArg some (eq_of_beq (Bool.and_eq_true_iff.mp h).2)
  | told | subscribed | parked => exact congrArg some (eq_of_beq h)
  | _ => cases h

theorem of_waits {g : ℕ} (h : stage.waits = some (s, g)) :
    stage.slot = some s ∧ stage.dial = none ∧ stage.early = true ∧ stage.hasWaited s = true := by
  cases stage with
  | told | subscribed | parked =>
    cases h
    exact ⟨rfl, rfl, rfl, beq_self_eq_true s⟩
  | _ => cases h

theorem of_dial {d : ℕ} (h : stage.dial = some (s, d)) :
    stage.slot = some s ∧ stage.waits = none ∧ stage.early = false ∧ stage.result = none ∧
      ∀ t, stage.hasWaited t = false := by
  cases stage with
  | connecting | connected | filed | failing | dropping =>
    cases h
    exact ⟨rfl, rfl, rfl, rfl, fun _ => rfl⟩
  | _ => cases h

theorem slot_of_dial {d : ℕ} (h : stage.dial = some (s, d)) : stage.slot = some s :=
  (of_dial h).1

theorem slot_of_waits {g : ℕ} (h : stage.waits = some (s, g)) : stage.slot = some s :=
  (of_waits h).1

theorem result_of_slot (h : stage.slot = some s) : stage.result = none := by
  cases stage with
  | leaving | «over» => cases h
  | _ => rfl

theorem counted_of_slot (h : stage.slot = some s) : stage.counted = true := by
  cases stage with
  | entering | «over» => cases h
  | _ => rfl

end Stage

/-! ## The invariant -/

/-- What stands behind the answer of a call: the handle was fit to be handed out when it was chosen; the error is
the one of a dial that the call began or that ended while it waited; or the pool was shut down. -/
def Answers (pool : Pool ο ε) (c : Caller ο ε) : Except (Error ε) Handed → Prop
  | .ok handed => ∀ seen, handed.seen = some seen → seen.eligible = true
  | .error (.dial number cause) => (number, cause) ∈ pool.failures ∧
      ((∃ b ∈ c.begun, b.number = number) ∨ ∃ first ∈ c.awaited, first ≤ number)
  | .error .shutDown => pool.closed = true

/-- What a caller has taken a note of while it holds its dial. -/
def Noted (pool : Pool ο ε) : Stage ε → Prop
  | .failing _ number cause => (number, cause) ∈ pool.failures
  | .filed _ _ _ closed => closed = true → pool.closed = true
  | _ => True

variable {pool pool' : Pool ο ε} {stage : Stage ε}

theorem Noted.mono (h : Noted pool stage)
    (hfailures : ∀ e ∈ pool.failures, e ∈ pool'.failures) (hclosed : pool.closed = true → pool'.closed = true) :
    Noted pool' stage := by
  cases stage with
  | failing s number cause => exact hfailures _ h
  | filed s number c closed => exact fun hshut => hclosed (h hshut)
  | _ => exact True.intro

theorem noted_of_dial (h : stage.dial = none) : Noted pool stage := by
  cases stage <;> first | exact True.intro | cases h

theorem noted_ring (h : Noted pool stage) (s : ℕ) : Noted pool (stage.ring s) := by
  cases stage <;> exact h

/-- What holds of a caller wherever it stands. -/
structure Fits (pool : Pool ο ε) (c : Caller ο ε) : Prop where
  known : ∀ s, c.stage.slot = some s → (c.origin, s) ∈ pool.connections
  holds : ∀ s d, c.stage.dial = some (s, d) → (pool.slot s).state = .dialing d ∧ ∃ b, c.begun = [b] ∧ b.number = d
  waits : ∀ s g, c.stage.waits = some (s, g) → g ≤ (pool.slot s).settled ∧
    (g = (pool.slot s).settled → ∃ d, (pool.slot s).state = .dialing d)
  parked : ∀ s g, c.stage = .parked s g false → g = (pool.slot s).settled
  since : ∀ s, c.stage.hasWaited s = true → ∃ first ∈ c.awaited, ∀ d, (pool.slot s).state.number = some d → first ≤ d
  awaited : ∀ first ∈ c.awaited, first < pool.dials
  early : c.stage.early = true → c.begun = []
  single : c.begun.length ≤ 1
  sparing : ∀ b ∈ c.begun, b.waited = true → b.found.isFailed = false
  noted : Noted pool c.stage
  answers : ∀ r, c.stage.result = some r → Answers pool c r

structure Sound (pool : Pool ο ε) : Prop where
  fits : ∀ (i : ℕ) c, pool.callers[i]? = some c → Fits pool c
  dialer : ∀ s d, (pool.slot s).state = .dialing d → ∃ (i : ℕ) (c : _), pool.callers[i]? = some c ∧ c.stage.dial = some (s, d)
  unique : ∀ (i j : ℕ) c c' s s' d, pool.callers[i]? = some c → pool.callers[j]? = some c' → c.stage.dial = some (s, d) →
    c'.stage.dial = some (s', d) → i = j
  fresh : ∀ s d, (pool.slot s).state.number = some d → d < pool.dials
  failed : ∀ s d cause, (pool.slot s).state = .failed d cause → (d, cause) ∈ pool.failures
  entries : ∀ e ∈ pool.connections, e.2 < pool.slots.length ∧
    ∀ e' ∈ pool.connections, e.1 = e'.1 ∨ e.2 = e'.2 → e = e'
  acquires : pool.acquires = pool.callers.countP (·.stage.counted)

theorem Fits.mono {c : Caller ο ε} (h : Fits pool c)
    (hslot : ∀ s, c.stage.slot = some s → pool'.slot s = pool.slot s)
    (hconnections : ∀ e ∈ pool.connections, e ∈ pool'.connections) (hfailures : ∀ e ∈ pool.failures, e ∈ pool'.failures)
    (hclosed : pool.closed = true → pool'.closed = true) (hdials : pool.dials ≤ pool'.dials) : Fits pool' c where
  known s hs := hconnections _ (h.known s hs)
  holds s d hd := by
    rw [hslot s (Stage.slot_of_dial hd)]
    exact h.holds s d hd
  waits s g hg := by
    rw [hslot s (Stage.slot_of_waits hg)]
    exact h.waits s g hg
  parked s g hg := by
    rw [hslot s (by rw [hg]; rfl)]
    exact h.parked s g hg
  since s hs := by
    rw [hslot s (Stage.slot_of_hasWaited hs)]
    exact h.since s hs
  awaited first hfirst := Nat.lt_of_lt_of_le (h.awaited first hfirst) hdials
  early := h.early
  single := h.single
  sparing := h.sparing
  noted := h.noted.mono hfailures hclosed
  answers r hr := by
    have := h.answers r hr
    match r with
    | .ok handed => exact this
    | .error (.dial number cause) => exact ⟨hfailures _ this.1, this.2⟩
    | .error .shutDown => exact hclosed this

/-! ## One step -/

section Move
variable {pool : Pool ο ε} {i : ℕ} {c : Caller ο ε} {stage : Stage ε}

theorem sound_move (h : Sound pool) (hc : pool.callers[i]? = some c) (hfits : Fits pool { c with stage })
    (hdial : stage.dial = c.stage.dial) (hcounted : stage.counted = c.stage.counted) : Sound (pool.move i stage) where
  fits j c' hc' := by
    rw [move_get] at hc'
    split at hc'
    · subst_vars
      rw [hc] at hc'
      cases hc'
      exact hfits.mono (fun _ _ => rfl) (fun _ h => h) (fun _ h => h) id (Nat.le_refl _)
    · exact (h.fits j c' hc').mono (fun _ _ => rfl) (fun _ h => h) (fun _ h => h) id (Nat.le_refl _)
  dialer s d hstate := by
    obtain ⟨j, c', hc', hd⟩ := h.dialer s d hstate
    by_cases hij : i = j
    · subst hij
      rw [hc] at hc'
      cases hc'
      exact ⟨i, { c with stage }, by simp [move_get, hc], hdial.trans hd⟩
    · exact ⟨j, c', by simp [move_get, hij, hc'], hd⟩
  unique j k c₁ c₂ s s' d h₁ h₂ hd₁ hd₂ := by
    have hback : ∀ {j : ℕ} {c' : Caller ο ε} {s}, (pool.move i stage).callers[j]? = some c' →
        c'.stage.dial = some (s, d) → ∃ c₀ : Caller ο ε, pool.callers[j]? = some c₀ ∧ c₀.stage.dial = some (s, d) := by
      intro j c' s hc' hd
      rw [move_get] at hc'
      split at hc'
      · subst_vars
        rw [hc] at hc'
        cases hc'
        exact ⟨c, hc, hdial.symm.trans hd⟩
      · exact ⟨c', hc', hd⟩
    obtain ⟨c₁', h₁', hd₁'⟩ := hback h₁ hd₁
    obtain ⟨c₂', h₂', hd₂'⟩ := hback h₂ hd₂
    exact h.unique j k c₁' c₂' s s' d h₁' h₂' hd₁' hd₂'
  fresh := h.fresh
  failed := h.failed
  entries := h.entries
  acquires := by
    show pool.acquires = (pool.callers.modify i _).countP _
    rw [countP_modify_of_eq hc hcounted]
    exact h.acquires

variable {s : ℕ}

theorem sound_settle (h : Sound pool) (hc : pool.callers[i]? = some c) {d : ℕ} {state : Dial ε}
    (hd : c.stage.dial = some (s, d)) (hnumber : ∀ d', state.number = some d' → d' = d)
    (hidle : ∀ d', state ≠ .dialing d') (hfailed : ∀ d' cause, state = .failed d' cause → (d', cause) ∈ pool.failures)
    (hleft : stage.slot = none ∧ stage.dial = none ∧ stage.waits = none ∧ stage.early = false ∧
      stage.counted = true ∧ ∀ s, stage.hasWaited s = false)
    (hanswers : ∀ r, stage.result = some r → Answers pool c r) : Sound ((pool.settle s state).move i stage) := by
  obtain ⟨hslot, hdial, hwaits, hearly, hcounted, hwaited⟩ := hleft
  have hfits := h.fits i c hc
  obtain ⟨hstate, b, hbegun, hb⟩ := hfits.holds s d hd
  have hlen : s < pool.slots.length := (h.entries _ (hfits.known s (Stage.slot_of_dial hd))).1
  have hback : ∀ {j : ℕ} {c' : Caller ο ε}, ((pool.settle s state).move i stage).callers[j]? = some c' →
      (j = i ∧ c' = { c with stage }) ∨ j ≠ i ∧ ∃ c₀ : Caller ο ε, pool.callers[j]? = some c₀ ∧
        c' = { c₀ with stage := c₀.stage.ring s } := by
    intro j c' hc'
    rw [move_get] at hc'
    split at hc'
    · rename_i hij
      subst hij
      rw [settle_get, hc] at hc'
      cases hc'
      exact .inl ⟨rfl, rfl⟩
    · rename_i hij
      rw [settle_get, Option.map_eq_some_iff] at hc'
      obtain ⟨c₀, hc₀, rfl⟩ := hc'
      exact .inr ⟨fun heq => hij heq.symm, c₀, hc₀, rfl⟩
  constructor
  case fits =>
    intro j c' hc'
    rcases hback hc' with ⟨rfl, rfl⟩ | ⟨hij, c₀, hc₀, rfl⟩
    · exact {
        known := by simp [hslot]
        holds := by simp [hdial]
        waits := by simp [hwaits]
        parked := by
          rintro t g rfl
          cases hwaits
        since := by simp [hwaited]
        awaited := hfits.awaited
        early := by simp [hearly]
        single := hfits.single
        sparing := hfits.sparing
        noted := noted_of_dial hdial
        answers := fun r hr => by
          have := hanswers r hr
          match r with
          | .ok handed => exact this
          | .error (.dial number cause) => exact this
          | .error .shutDown => exact this }
    · have hfits₀ := h.fits j c₀ hc₀
      exact {
        known := by simpa using hfits₀.known
        holds := by
          intro t d' hd'
          rw [Stage.ring_dial] at hd'
          obtain ⟨hstate', hbegun'⟩ := hfits₀.holds t d' hd'
          refine ⟨?_, hbegun'⟩
          rw [move_slot, settle_slot, if_neg]
          · exact hstate'
          · rintro ⟨rfl, -⟩
            rw [hstate] at hstate'
            cases hstate'
            exact hij (h.unique _ _ _ _ _ _ _ hc₀ hc hd' hd)
        waits := by
          intro t g hg
          rw [Stage.ring_waits] at hg
          obtain ⟨hle, hkeeps⟩ := hfits₀.waits t g hg
          rw [move_slot, settle_slot]
          split
          · constructor
            · exact Nat.le_succ_of_le hle
            · rintro rfl
              exact absurd hle (by simp)
          · exact ⟨hle, hkeeps⟩
        parked := by
          intro t g hg
          obtain ⟨hparked, hne⟩ := Stage.ring_parked _ _ _ hg
          rw [move_slot, settle_slot, if_neg (fun heq => hne heq.1)]
          exact hfits₀.parked t g hparked
        since := by
          intro t ht
          rw [Stage.ring_hasWaited] at ht
          obtain ⟨first, hfirst, hle⟩ := hfits₀.since t ht
          refine ⟨first, hfirst, fun d' hd' => ?_⟩
          rw [move_slot, settle_slot] at hd'
          split at hd'
          · rename_i heq
            obtain ⟨rfl, -⟩ := heq
            obtain rfl := hnumber d' hd'
            exact hle _ (by rw [hstate]; rfl)
          · exact hle d' hd'
        awaited := hfits₀.awaited
        early := by simpa using hfits₀.early
        single := hfits₀.single
        sparing := hfits₀.sparing
        noted := noted_ring hfits₀.noted s
        answers := fun r hr => by
          have := hfits₀.answers r (by simpa using hr)
          match r with
          | .ok handed => exact this
          | .error (.dial number cause) => exact this
          | .error .shutDown => exact this }
  case dialer =>
    intro t d' hstate'
    rw [move_slot, settle_slot] at hstate'
    split at hstate'
    · exact absurd hstate' (hidle d')
    · rename_i hne
      obtain ⟨j, c₀, hc₀, hd₀⟩ := h.dialer t d' hstate'
      have hij : i ≠ j := by
        rintro rfl
        rw [hc] at hc₀
        cases hc₀
        rw [hd] at hd₀
        cases hd₀
        exact hne ⟨rfl, hlen⟩
      refine ⟨j, { c₀ with stage := c₀.stage.ring s }, ?_, by simpa using hd₀⟩
      rw [move_get, if_neg hij, settle_get, hc₀]
      rfl
  case unique =>
    intro j k c₁ c₂ t t' d' h₁ h₂ hd₁ hd₂
    rcases hback h₁ with ⟨rfl, rfl⟩ | ⟨-, c₁', h₁', rfl⟩
    · simp [hdial] at hd₁
    rcases hback h₂ with ⟨rfl, rfl⟩ | ⟨-, c₂', h₂', rfl⟩
    · simp [hdial] at hd₂
    rw [Stage.ring_dial] at hd₁ hd₂
    exact h.unique _ _ _ _ _ _ _ h₁' h₂' hd₁ hd₂
  case fresh =>
    intro t d' hd'
    rw [move_slot, settle_slot] at hd'
    split at hd'
    · obtain rfl := hnumber d' hd'
      exact h.fresh s d' (by rw [hstate]; rfl)
    · exact h.fresh t d' hd'
  case failed =>
    intro t d' cause hstate'
    rw [move_slot, settle_slot] at hstate'
    split at hstate'
    · exact hfailed d' cause hstate'
    · exact h.failed t d' cause hstate'
  case entries =>
    intro e he
    refine ⟨?_, (h.entries e he).2⟩
    simpa [Pool.move, Pool.settle] using (h.entries e he).1
  case acquires =>
    have hring : (pool.settle s state).callers.countP (·.stage.counted) = pool.callers.countP (·.stage.counted) := by
      simp [Pool.settle, List.countP_map, Function.comp_def]
    have hget : (pool.settle s state).callers[i]? = some { c with stage := c.stage.ring s } := by
      rw [settle_get, hc]
      rfl
    show pool.acquires = ((pool.settle s state).callers.modify i _).countP _
    rw [countP_modify_of_eq hget, hring]
    · exact h.acquires
    · simp [hcounted, Stage.counted_of_slot (Stage.slot_of_dial hd)]

theorem sound_claim (h : Sound pool) (hc : pool.callers[i]? = some c) {waited : Bool}
    (hstage : c.stage = .deciding s waited) (hstate : ∀ d, (pool.slot s).state ≠ .dialing d)
    (hwaited : waited = true → (pool.slot s).state.isFailed = false) : Sound (pool.claim i s waited) := by
  have hfits := h.fits i c hc
  have hbegun : c.begun = [] := hfits.early (by rw [hstage]; rfl)
  have hlen : s < pool.slots.length := (h.entries _ (hfits.known s (by rw [hstage]; rfl))).1
  have hslot : ∀ t, (pool.claim i s waited).slot t =
      if s = t ∧ t < pool.slots.length then { pool.slot t with state := .dialing pool.dials } else pool.slot t :=
    fun t => slot_modify s t _ _
  have hback : ∀ {j : ℕ} {c' : Caller ο ε}, (pool.claim i s waited).callers[j]? = some c' →
      (j = i ∧ c' = { c with
        stage := .connecting s pool.dials, begun := [⟨pool.dials, waited, (pool.slot s).state⟩] }) ∨
      j ≠ i ∧ pool.callers[j]? = some c' := by
    intro j c' hc'
    rcases getElem?_modify_some hc' with ⟨rfl, c₀, hc₀, rfl⟩ | hother
    · rw [hc] at hc₀
      cases hc₀
      exact .inl ⟨rfl, by simp [hbegun]⟩
    · exact .inr hother
  have hself : (pool.claim i s waited).callers[i]? = some { c with
      stage := .connecting s pool.dials, begun := [⟨pool.dials, waited, (pool.slot s).state⟩] } := by
    simp [Pool.claim, hc, hbegun]
  constructor
  case fits =>
    intro j c' hc'
    rcases hback hc' with ⟨rfl, rfl⟩ | ⟨hij, hc₀⟩
    · exact {
        known := by
          intro t ht
          cases ht
          exact hfits.known s (by rw [hstage]; rfl)
        holds := by
          intro t d hd
          cases hd
          refine ⟨?_, _, rfl, rfl⟩
          rw [hslot, if_pos ⟨rfl, hlen⟩]
        waits := nofun
        parked := nofun
        since := nofun
        awaited := fun first hfirst => Nat.lt_succ_of_lt (hfits.awaited first hfirst)
        early := nofun
        single := by simp
        sparing := by
          intro b hb
          obtain rfl : b = ⟨pool.dials, waited, (pool.slot s).state⟩ := by simpa using hb
          exact hwaited
        noted := True.intro
        answers := nofun }
    · have hfits₀ := h.fits j c' hc₀
      exact {
        known := hfits₀.known
        holds := by
          intro t d hd
          obtain ⟨hstate', hbegun'⟩ := hfits₀.holds t d hd
          refine ⟨?_, hbegun'⟩
          rw [hslot, if_neg]
          · exact hstate'
          · rintro ⟨rfl, -⟩
            exact hstate d hstate'
        waits := by
          intro t g hg
          obtain ⟨hle, hkeeps⟩ := hfits₀.waits t g hg
          rw [hslot]
          split
          · exact ⟨hle, fun _ => ⟨_, rfl⟩⟩
          · exact ⟨hle, hkeeps⟩
        parked := by
          intro t g hg
          rw [hslot]
          split
          · exact hfits₀.parked t g hg
          · exact hfits₀.parked t g hg
        since := by
          intro t ht
          obtain ⟨first, hfirst, hle⟩ := hfits₀.since t ht
          refine ⟨first, hfirst, fun d hd => ?_⟩
          rw [hslot] at hd
          split at hd
          · cases hd
            exact Nat.le_of_lt (hfits₀.awaited first hfirst)
          · exact hle d hd
        awaited := fun first hfirst => Nat.lt_succ_of_lt (hfits₀.awaited first hfirst)
        early := hfits₀.early
        single := hfits₀.single
        sparing := hfits₀.sparing
        noted := hfits₀.noted
        answers := fun r hr => by
          have := hfits₀.answers r hr
          match r with
          | .ok handed => exact this
          | .error (.dial number cause) => exact this
          | .error .shutDown => exact this }
  case dialer =>
    intro t d hd
    rw [hslot] at hd
    split at hd
    · rename_i heq
      obtain ⟨rfl, -⟩ := heq
      cases hd
      exact ⟨i, _, hself, rfl⟩
    · obtain ⟨j, c₀, hc₀, hd₀⟩ := h.dialer t d hd
      have hij : i ≠ j := by
        rintro rfl
        rw [hc] at hc₀
        cases hc₀
        rw [hstage] at hd₀
        cases hd₀
      refine ⟨j, c₀, ?_, hd₀⟩
      simp [Pool.claim, hij, hc₀]
  case unique =>
    have hnew : ∀ {j : ℕ} {c₀ : Caller ο ε} {t}, pool.callers[j]? = some c₀ → c₀.stage.dial ≠ some (t, pool.dials) := by
      intro j c₀ t hc₀ hd₀
      have hlt := h.fresh t pool.dials (by rw [((h.fits j c₀ hc₀).holds t _ hd₀).1]; rfl)
      exact absurd hlt (Nat.lt_irrefl _)
    intro j k c₁ c₂ t t' d h₁ h₂ hd₁ hd₂
    rcases hback h₁ with ⟨rfl, rfl⟩ | ⟨-, h₁'⟩
    · rcases hback h₂ with ⟨rfl, rfl⟩ | ⟨-, h₂'⟩
      · rfl
      · cases hd₁
        exact absurd hd₂ (hnew h₂')
    · rcases hback h₂ with ⟨rfl, rfl⟩ | ⟨-, h₂'⟩
      · cases hd₂
        exact absurd hd₁ (hnew h₁')
      · exact h.unique _ _ _ _ _ _ _ h₁' h₂' hd₁ hd₂
  case fresh =>
    intro t d hd
    rw [hslot] at hd
    split at hd
    · cases hd
      exact Nat.lt_succ_self _
    · exact Nat.lt_succ_of_lt (h.fresh t d hd)
  case failed =>
    intro t d cause hd
    rw [hslot] at hd
    split at hd
    · cases hd
    · exact h.failed t d cause hd
  case entries =>
    intro e he
    refine ⟨?_, (h.entries e he).2⟩
    simpa [Pool.claim] using (h.entries e he).1
  case acquires =>
    show pool.acquires = (pool.callers.modify i _).countP _
    rw [countP_modify_of_eq hc (by rw [hstage]; rfl)]
    exact h.acquires

theorem sound_told (h : Sound pool) (hc : pool.callers[i]? = some c) {d : ℕ} {waited : Bool}
    (hstage : c.stage = .deciding s waited) (hstate : (pool.slot s).state = .dialing d) :
    Sound (pool.decide i s waited) := by
  have hfits := h.fits i c hc
  -- the dials that it was told to wait for are nothing that anyone else looks at
  have hnoted : Sound { pool with
      callers := pool.callers.modify i fun caller => { caller with awaited := caller.awaited ++ [d] } } := by
    have hback : ∀ {j : ℕ} {c' : Caller ο ε},
        (pool.callers.modify i fun caller => { caller with awaited := caller.awaited ++ [d] })[j]? = some c' →
        ∃ c₀ : Caller ο ε, pool.callers[j]? = some c₀ ∧ c'.stage = c₀.stage ∧
          (c' = c₀ ∨ c' = { c₀ with awaited := c₀.awaited ++ [d] }) := by
      intro j c' hc'
      rcases getElem?_modify_some hc' with ⟨rfl, c₀, hc₀, rfl⟩ | ⟨-, hc₀⟩
      · exact ⟨c₀, hc₀, rfl, .inr rfl⟩
      · exact ⟨c', hc₀, rfl, .inl rfl⟩
    constructor
    case fits =>
      intro j c' hc'
      obtain ⟨c₀, hc₀, -, rfl | rfl⟩ := hback hc'
      · exact (h.fits j _ hc₀).mono (fun _ _ => rfl) (fun _ h => h) (fun _ h => h) id (Nat.le_refl _)
      · have hfits₀ := (h.fits j _ hc₀)
        exact {
          known := hfits₀.known
          holds := hfits₀.holds
          waits := hfits₀.waits
          parked := hfits₀.parked
          since := by
            intro t ht
            obtain ⟨first, hfirst, hle⟩ := hfits₀.since t ht
            exact ⟨first, List.mem_append_left _ hfirst, hle⟩
          awaited := by
            intro first hfirst
            rcases List.mem_append.mp hfirst with hfirst | hfirst
            · exact hfits₀.awaited first hfirst
            · obtain rfl := List.mem_singleton.mp hfirst
              exact h.fresh s first (by rw [hstate]; rfl)
          early := hfits₀.early
          single := hfits₀.single
          sparing := hfits₀.sparing
          noted := hfits₀.noted
          answers := fun r hr => by
            have := hfits₀.answers r hr
            match r with
            | .ok handed => exact this
            | .error (.dial number cause) =>
              refine ⟨this.1, this.2.imp_right fun ⟨first, hfirst, hle⟩ => ?_⟩
              exact ⟨first, List.mem_append_left _ hfirst, hle⟩
            | .error .shutDown => exact this }
    case dialer =>
      intro t d' hd'
      obtain ⟨j, c₀, hc₀, hd₀⟩ := h.dialer t d' hd'
      by_cases hij : i = j
      · subst hij
        exact ⟨i, { c₀ with awaited := c₀.awaited ++ [d] }, by simp [hc₀], hd₀⟩
      · exact ⟨j, c₀, by simp [hij, hc₀], hd₀⟩
    case unique =>
      intro j k c₁ c₂ t t' d' h₁ h₂ hd₁ hd₂
      obtain ⟨c₁', h₁', hs₁, -⟩ := hback h₁
      obtain ⟨c₂', h₂', hs₂, -⟩ := hback h₂
      rw [hs₁] at hd₁
      rw [hs₂] at hd₂
      exact h.unique _ _ _ _ _ _ _ h₁' h₂' hd₁ hd₂
    case fresh => exact h.fresh
    case failed => exact h.failed
    case entries => exact h.entries
    case acquires =>
      show pool.acquires = (pool.callers.modify i _).countP _
      rw [countP_modify_of_eq hc rfl]
      exact h.acquires
  have hget : (pool.callers.modify i fun caller => { caller with awaited := caller.awaited ++ [d] })[i]? =
      some { c with awaited := c.awaited ++ [d] } := by
    simp [hc]
  have hmoved := @sound_move _ _ _ i _ (.told s (pool.slot s).settled) hnoted hget ?_ (by rw [hstage]; rfl)
    (by rw [hstage]; rfl)
  · rw [Pool.decide, hstate]
    convert hmoved using 1
    simp only [Pool.move, Pool.mk.injEq, and_true, true_and]
    rw [List.modify_modify_eq]
    rfl
  · have hnext := hnoted.fits i _ hget
    exact {
      known := by
        intro t ht
        cases ht
        exact hfits.known s (by rw [hstage]; rfl)
      holds := nofun
      waits := by
        intro t g hg
        cases hg
        exact ⟨Nat.le_refl _, fun _ => ⟨d, hstate⟩⟩
      parked := nofun
      since := by
        intro t ht
        obtain rfl : s = t := by simpa [Stage.hasWaited] using ht
        refine ⟨d, by simp, fun d' hd' => ?_⟩
        change (pool.slot s).state.number = some d' at hd'
        rw [hstate] at hd'
        cases hd'
        exact Nat.le_refl _
      awaited := hnext.awaited
      early := fun _ => hfits.early (by rw [hstage]; rfl)
      single := hnext.single
      sparing := hnext.sparing
      noted := True.intro
      answers := nofun }

theorem sound_count (h : Sound pool) (hc : pool.callers[i]? = some c) (hfits : Fits pool { c with stage })
    (hdial : stage.dial = none) (hdial' : c.stage.dial = none) {acquires watch : ℕ}
    (hacquires : acquires + (if c.stage.counted then 1 else 0) = pool.acquires + if stage.counted then 1 else 0) :
    Sound ({ pool with acquires, acquiresWatch := watch }.move i stage) := by
  have hback : ∀ {j : ℕ} {c' : Caller ο ε},
      ({ pool with acquires, acquiresWatch := watch }.move i stage).callers[j]? = some c' →
      c' = { c with stage } ∨ pool.callers[j]? = some c' := by
    intro j c' hc'
    rcases getElem?_modify_some hc' with ⟨rfl, c₀, hc₀, rfl⟩ | ⟨-, hother⟩
    · rw [hc] at hc₀
      cases hc₀
      exact .inl rfl
    · exact .inr hother
  constructor
  case fits =>
    intro j c' hc'
    rcases hback hc' with rfl | hc'
    · exact hfits.mono (fun _ _ => rfl) (fun _ h => h) (fun _ h => h) id (Nat.le_refl _)
    · exact (h.fits j c' hc').mono (fun _ _ => rfl) (fun _ h => h) (fun _ h => h) id (Nat.le_refl _)
  case dialer =>
    intro s d hd
    obtain ⟨j, c₀, hc₀, hd₀⟩ := h.dialer s d hd
    have hij : i ≠ j := by
      rintro rfl
      rw [hc] at hc₀
      cases hc₀
      rw [hdial'] at hd₀
      cases hd₀
    exact ⟨j, c₀, by simp [Pool.move, hij, hc₀], hd₀⟩
  case unique =>
    intro j k c₁ c₂ s s' d h₁ h₂ hd₁ hd₂
    rcases hback h₁ with rfl | h₁'
    · simp [hdial] at hd₁
    rcases hback h₂ with rfl | h₂'
    · simp [hdial] at hd₂
    exact h.unique _ _ _ _ _ _ _ h₁' h₂' hd₁ hd₂
  case fresh => exact h.fresh
  case failed => exact h.failed
  case entries => exact h.entries
  case acquires =>
    have hcount := countP_modify (p := fun c : Caller ο ε => c.stage.counted) (f := fun c => { c with stage }) hc
    have hall := h.acquires
    show acquires = (pool.callers.modify i _).countP _
    dsimp only at hcount
    omega

theorem Fits.plain (h : Fits pool c) (hplain : stage.slot = none ∧ stage.dial = none ∧ stage.waits = none ∧
      ∀ s, stage.hasWaited s = false) (hearly : stage.early = true → c.begun = [])
    (hanswers : ∀ r, stage.result = some r → Answers pool c r) : Fits pool { c with stage } := by
  obtain ⟨hslot, hdial, hwaits, hwaited⟩ := hplain
  exact {
    known := by simp [hslot]
    holds := by simp [hdial]
    waits := by simp [hwaits]
    parked := by
      rintro t g rfl
      cases hwaits
    since := by simp [hwaited]
    awaited := h.awaited
    early := hearly
    single := h.single
    sparing := h.sparing
    noted := noted_of_dial hdial
    answers := fun r hr => by
      have := hanswers r hr
      match r with
      | .ok handed => exact this
      | .error (.dial number cause) => exact this
      | .error .shutDown => exact this }

end Move

section Steps
variable {pool : Pool ο ε} {i : ℕ} {c : Caller ο ε}

theorem sound_register (h : Sound pool) (hc : pool.callers[i]? = some c) (hstage : c.stage = .entering) :
    Sound (pool.register i) := by
  have hfits := h.fits i c hc
  rw [Pool.register]
  split
  · rename_i hclosed
    refine sound_count h hc (hfits.plain ⟨rfl, rfl, rfl, fun _ => rfl⟩ (by simp [Stage.early]) ?_) rfl
      (by rw [hstage]; rfl) (by rw [hstage]; rfl)
    intro r hr
    obtain rfl : .error .shutDown = r := by simpa [Stage.result] using hr
    exact hclosed
  · exact sound_count h hc (hfits.plain ⟨rfl, rfl, rfl, fun _ => rfl⟩
      (fun _ => hfits.early (by rw [hstage]; rfl)) (by simp [Stage.result])) rfl (by rw [hstage]; rfl)
      (by rw [hstage]; rfl)

theorem sound_release (h : Sound pool) (hc : pool.callers[i]? = some c) {result : Option (Except (Error ε) Handed)}
    (hstage : c.stage = .leaving result) : Sound (pool.release i result) := by
  have hfits := h.fits i c hc
  have hpos : 0 < pool.acquires := by
    rw [h.acquires, List.countP_pos_iff]
    exact ⟨c, List.mem_of_getElem? hc, by rw [hstage]; rfl⟩
  refine sound_count h hc (hfits.plain ⟨rfl, rfl, rfl, fun _ => rfl⟩ (by simp [Stage.early]) ?_) rfl
    (by rw [hstage]; rfl) ?_
  · intro r hr
    exact hfits.answers r (by rw [hstage]; exact hr)
  · rw [hstage]
    show pool.acquires - 1 + 1 = pool.acquires + 0
    omega

theorem sound_newSlot (h : Sound pool) {origin : ο} (hnew : ∀ e ∈ pool.connections, origin ≠ e.1) :
    Sound { pool with
      connections := pool.connections ++ [(origin, pool.slots.length)]
      slots := pool.slots ++ [({} : Slot ε)] } := by
  have hslot : ∀ s, ({ pool with
      connections := pool.connections ++ [(origin, pool.slots.length)]
      slots := pool.slots ++ [({} : Slot ε)] } : Pool ο ε).slot s = pool.slot s := by
    intro s
    simp only [Pool.slot, List.getElem?_append]
    split
    · rfl
    · rename_i hs
      rw [List.getElem?_eq_none (by omega : pool.slots.length ≤ s)]
      cases hget : [({} : Slot ε)][s - pool.slots.length]? with
      | none => rfl
      | some slot =>
        obtain rfl := List.mem_singleton.mp (List.mem_of_getElem? hget)
        rfl
  constructor
  case fits =>
    intro j c' hc'
    exact (h.fits j c' hc').mono (fun s _ => hslot s) (fun _ he => List.mem_append_left _ he) (fun _ h => h) id
      (Nat.le_refl _)
  case dialer =>
    intro s d hd
    rw [hslot] at hd
    exact h.dialer s d hd
  case unique => exact h.unique
  case fresh =>
    intro s d hd
    rw [hslot] at hd
    exact h.fresh s d hd
  case failed =>
    intro s d cause hd
    rw [hslot] at hd
    exact h.failed s d cause hd
  case entries =>
    intro e he
    rcases List.mem_append.mp he with he | he
    · obtain ⟨hlt, hinj⟩ := h.entries e he
      refine ⟨by simp; omega, fun e' he' heq => ?_⟩
      rcases List.mem_append.mp he' with he' | he'
      · exact hinj e' he' heq
      · obtain rfl := List.mem_singleton.mp he'
        rcases heq with heq | heq
        · exact absurd heq.symm (hnew e he)
        · dsimp only at heq
          omega
    · obtain rfl := List.mem_singleton.mp he
      refine ⟨by simp, fun e' he' heq => ?_⟩
      rcases List.mem_append.mp he' with he' | he'
      · rcases heq with heq | heq
        · exact absurd heq (hnew e' he')
        · have := (h.entries e' he').1
          dsimp only at heq
          omega
      · exact (List.mem_singleton.mp he').symm
  case acquires => exact h.acquires

theorem sound_slotFor [DecidableEq ο] (h : Sound pool) (hc : pool.callers[i]? = some c) (hstage : c.stage = .registered) :
    Sound (pool.slotFor i c.origin) := by
  have hfound : ∀ {pool : Pool ο ε} {s : ℕ}, Sound pool → pool.callers[i]? = some c → (c.origin, s) ∈ pool.connections →
      Sound (pool.move i (.deciding s false)) := by
    intro pool s h hc hmem
    have hfits := h.fits i c hc
    refine sound_move h hc ?_ (by rw [hstage]; rfl) (by rw [hstage]; rfl)
    exact {
      known := by
        intro t ht
        cases ht
        exact hmem
      holds := nofun
      waits := nofun
      parked := nofun
      since := by simp [Stage.hasWaited]
      awaited := hfits.awaited
      early := fun _ => hfits.early (by rw [hstage]; rfl)
      single := hfits.single
      sparing := hfits.sparing
      noted := True.intro
      answers := nofun }
  rw [Pool.slotFor]
  split
  · rename_i hclosed
    refine sound_move h hc ((h.fits i c hc).plain ⟨rfl, rfl, rfl, fun _ => rfl⟩ nofun ?_) (by rw [hstage]; rfl)
      (by rw [hstage]; rfl)
    intro r hr
    obtain rfl : .error .shutDown = r := by simpa [Stage.result] using hr
    exact hclosed
  · split
    · rename_i s hlookup
      obtain ⟨before, after, hsplit, -⟩ := List.lookup_eq_some_iff.mp hlookup
      exact hfound h hc (by rw [hsplit]; simp)
    · rename_i hlookup
      have hnew : ∀ e ∈ pool.connections, c.origin ≠ e.1 := by
        simpa using List.lookup_eq_none_iff.mp hlookup
      exact hfound (sound_newSlot h hnew) hc (by simp)

variable {s : ℕ}

theorem sound_decide (h : Sound pool) (hc : pool.callers[i]? = some c) {waited : Bool}
    (hstage : c.stage = .deciding s waited) : Sound (pool.decide i s waited) := by
  have hfits := h.fits i c hc
  cases hstate : (pool.slot s).state with
  | dialing d => exact sound_told h hc hstage hstate
  | idle =>
    rw [Pool.decide, hstate]
    exact sound_claim h hc hstage (by simp [hstate]) (by simp [hstate, Dial.isFailed])
  | ready conn =>
    rw [Pool.decide, hstate]
    dsimp only
    split
    · exact sound_claim h hc hstage (by simp [hstate]) (by simp [hstate, Dial.isFailed])
    · rename_i helig
      refine sound_move h hc (hfits.plain ⟨rfl, rfl, rfl, fun _ => rfl⟩ nofun ?_) (by rw [hstage]; rfl)
        (by rw [hstage]; rfl)
      intro r hr
      obtain rfl : .ok ⟨conn, some (pool.conn conn)⟩ = r := by simpa [Stage.result] using hr
      intro seen hseen
      obtain rfl : pool.conn conn = seen := by simpa using hseen
      simpa [Conn.eligible] using helig
  | failed d cause =>
    rw [Pool.decide, hstate]
    dsimp only
    split
    · rename_i hwaited
      refine sound_move h hc (hfits.plain ⟨rfl, rfl, rfl, fun _ => rfl⟩ nofun ?_) (by rw [hstage]; rfl)
        (by rw [hstage]; rfl)
      intro r hr
      obtain rfl : .error (.dial d cause) = r := by simpa [Stage.result] using hr
      obtain ⟨first, hfirst, hle⟩ := hfits.since s (by rw [hstage]; simp [Stage.hasWaited, hwaited])
      exact ⟨h.failed s d cause hstate, .inr ⟨first, hfirst, hle d (by rw [hstate]; rfl)⟩⟩
    · rename_i hwaited
      exact sound_claim h hc hstage (by simp [hstate]) (fun htrue => absurd htrue hwaited)

theorem sound_waiting (h : Sound pool) (hc : pool.callers[i]? = some c) {g : ℕ} {stage : Stage ε}
    (hwaits : c.stage.waits = some (s, g)) (hslot : stage.slot = some s) (hdial : stage.dial = none)
    (hkeeps : ∀ t g', stage.waits = some (t, g') → t = s ∧ g' = g)
    (hwaited : ∀ t, stage.hasWaited t = true → t = s)
    (hparked : ∀ t g', stage = .parked t g' false → g' = (pool.slot t).settled) : Sound (pool.move i stage) := by
  have hfits := h.fits i c hc
  have hcase := Stage.of_waits hwaits
  refine sound_move h hc ?_ (hdial.trans hcase.2.1.symm) ?_
  · exact {
      known := by
        intro t ht
        rw [hslot] at ht
        cases ht
        exact hfits.known s hcase.1
      holds := by simp [hdial]
      waits := by
        intro t g' hg
        obtain ⟨rfl, rfl⟩ := hkeeps t g' hg
        exact hfits.waits t g' hwaits
      parked := hparked
      since := by
        intro t ht
        obtain rfl := hwaited t ht
        exact hfits.since t hcase.2.2.2
      awaited := hfits.awaited
      early := fun _ => hfits.early hcase.2.2.1
      single := hfits.single
      sparing := hfits.sparing
      noted := noted_of_dial hdial
      answers := by simp [Stage.result_of_slot hslot] }
  · rw [Stage.counted_of_slot hslot, Stage.counted_of_slot hcase.1]

theorem sound_look (h : Sound pool) (hc : pool.callers[i]? = some c) {g : ℕ} (hwaits : c.stage.waits = some (s, g)) :
    Sound (pool.look i s g) := by
  rw [Pool.look]
  split
  · refine sound_waiting h hc hwaits rfl rfl nofun ?_ nofun
    intro t ht
    exact (by simpa [Stage.hasWaited] using ht : s = t).symm
  · rename_i hsame
    refine sound_waiting h hc hwaits rfl rfl ?_ ?_ ?_
    · intro t g' hg
      cases hg
      exact ⟨rfl, rfl⟩
    · intro t ht
      exact (by simpa [Stage.hasWaited] using ht : s = t).symm
    · intro t g' hg
      cases hg
      exact (not_not.mp hsame).symm

variable {d : ℕ}

theorem sound_holding (h : Sound pool) (hc : pool.callers[i]? = some c) {stage : Stage ε}
    (hd : c.stage.dial = some (s, d)) (hdial : stage.dial = some (s, d))
    (hnoted : Noted pool stage) : Sound (pool.move i stage) := by
  have hfits := h.fits i c hc
  have hcase := Stage.of_dial hdial
  refine sound_move h hc ?_ (hdial.trans hd.symm) ?_
  · exact {
      known := by
        intro t ht
        rw [hcase.1] at ht
        cases ht
        exact hfits.known s (Stage.slot_of_dial hd)
      holds := by
        intro t d' hd'
        rw [hdial] at hd'
        cases hd'
        exact hfits.holds s d hd
      waits := by simp [hcase]
      parked := by
        rintro t g rfl
        cases hdial
      since := by simp [hcase]
      awaited := hfits.awaited
      early := by simp [hcase]
      single := hfits.single
      sparing := hfits.sparing
      noted := hnoted
      answers := by simp [hcase] }
  · rw [Stage.counted_of_slot hcase.1, Stage.counted_of_slot (Stage.slot_of_dial hd)]

theorem Sound.mono {pool' : Pool ο ε} (h : Sound pool) (hcallers : pool'.callers = pool.callers)
    (hslots : pool'.slots = pool.slots) (hconnections : pool'.connections = pool.connections)
    (hdials : pool'.dials = pool.dials) (hfailures : ∀ e ∈ pool.failures, e ∈ pool'.failures)
    (hclosed : pool.closed = true → pool'.closed = true) (hacquires : pool'.acquires = pool.acquires) :
    Sound pool' := by
  have hslot : ∀ s, pool'.slot s = pool.slot s := fun s => by rw [Pool.slot, hslots, Pool.slot]
  constructor
  case fits =>
    intro j c' hc'
    rw [hcallers] at hc'
    exact (h.fits j c' hc').mono (fun s _ => hslot s) (fun _ he => hconnections ▸ he) hfailures hclosed
      (Nat.le_of_eq hdials.symm)
  case dialer =>
    intro s d hd
    rw [hslot] at hd
    rw [hcallers]
    exact h.dialer s d hd
  case unique =>
    rw [hcallers]
    exact h.unique
  case fresh =>
    intro s d hd
    rw [hslot] at hd
    rw [hdials]
    exact h.fresh s d hd
  case failed =>
    intro s d cause hd
    rw [hslot] at hd
    exact hfailures _ (h.failed s d cause hd)
  case entries =>
    rw [hconnections, hslots]
    exact h.entries
  case acquires =>
    rw [hacquires, hcallers]
    exact h.acquires

theorem sound_connect (h : Sound pool) (i : ℕ) (outcome : Except ε Unit) : Sound (pool.connect i outcome) := by
  rw [Pool.connect]
  split
  · exact h
  · rename_i c hc
    split
    · rename_i s d hstage
      have hpool : Sound { pool with conns := pool.conns ++ [({} : Conn)] } :=
        h.mono rfl rfl rfl rfl (fun _ he => he) id rfl
      apply sound_holding hpool hc (s := s) (d := d)
      · rw [hstage]
        rfl
      · rfl
      · exact True.intro
    · rename_i s d cause hstage
      have hpool : Sound { pool with failures := pool.failures ++ [(d, cause)] } :=
        h.mono rfl rfl rfl rfl (fun _ he => List.mem_append_left _ he) id rfl
      apply sound_holding hpool hc (s := s) (d := d)
      · rw [hstage]
        rfl
      · rfl
      · exact List.mem_append_right _ (List.mem_singleton_self _)
    · exact h

theorem sound_cancel (h : Sound pool) (i : ℕ) : Sound (pool.cancel i) := by
  rw [Pool.cancel]
  split
  · exact h
  · rename_i c hc
    split
    · rename_i s d hstage
      apply sound_holding h hc (s := s) (d := d)
      · rw [hstage]
        rfl
      · rfl
      · exact True.intro
    · rename_i s g woken hstage
      refine sound_move h hc ((h.fits i c hc).plain ⟨rfl, rfl, rfl, fun _ => rfl⟩ (by simp [Stage.early]) ?_)
        (by rw [hstage]; rfl) (by rw [hstage]; rfl)
      simp [Stage.result]
    · exact h

theorem left (result : Option (Except (Error ε) Handed)) : (Stage.leaving result).slot = none ∧
    (Stage.leaving result).dial = none ∧ (Stage.leaving result).waits = none ∧ (Stage.leaving result).early = false ∧
    (Stage.leaving result).counted = true ∧ ∀ s, (Stage.leaving result).hasWaited s = false :=
  ⟨rfl, rfl, rfl, rfl, rfl, fun _ => rfl⟩

theorem sound_publish (h : Sound pool) (hc : pool.callers[i]? = some c) {conn : ℕ} {closed : Bool}
    (hstage : c.stage = .filed s d conn closed) : Sound (pool.publish i s conn closed) := by
  have hclosed := (h.fits i c hc).noted
  rw [hstage] at hclosed
  have hdial : c.stage.dial = some (s, d) := by
    rw [hstage]
    rfl
  rw [Pool.publish]
  split
  · rename_i hshut
    have hpool : Sound (pool.shutDownConn conn) := h.mono rfl rfl rfl rfl (fun _ he => he) id rfl
    refine sound_settle hpool hc hdial (by simp [Dial.number]) nofun nofun (left _) ?_
    intro r hr
    obtain rfl : .error .shutDown = r := by simpa [Stage.result] using hr
    exact hclosed hshut
  · refine sound_settle h hc hdial (by simp [Dial.number]) nofun nofun (left _) ?_
    intro r hr
    obtain rfl : .ok ⟨conn, none⟩ = r := by simpa [Stage.result] using hr
    exact nofun

theorem sound_failing (h : Sound pool) (hc : pool.callers[i]? = some c) {cause : ε}
    (hstage : c.stage = .failing s d cause) :
    Sound ((pool.settle s (.failed d cause)).move i (.leaving (some (.error (.dial d cause))))) := by
  have hfits := h.fits i c hc
  have hdial : c.stage.dial = some (s, d) := by
    rw [hstage]
    rfl
  have hfailed := hfits.noted
  rw [hstage] at hfailed
  refine sound_settle h hc hdial ?_ nofun ?_ (left _) ?_
  · intro d' hd'
    cases hd'
    rfl
  · intro d' cause' heq
    cases heq
    exact hfailed
  · intro r hr
    obtain rfl : .error (.dial d cause) = r := by simpa [Stage.result] using hr
    obtain ⟨-, b, hbegun, hb⟩ := hfits.holds s d hdial
    exact ⟨hfailed, .inl ⟨b, by simp [hbegun], hb⟩⟩

theorem sound_advance [DecidableEq ο] (h : Sound pool) (i : ℕ) : Sound (pool.advance i) := by
  rw [Pool.advance]
  split
  · exact h
  rename_i c hc
  cases hstage : c.stage with
  | entering => exact sound_register h hc hstage
  | registered => exact sound_slotFor h hc hstage
  | deciding s waited => exact sound_decide h hc hstage
  | told s g =>
    refine sound_waiting (s := s) (g := g) h hc (by rw [hstage]; rfl) rfl rfl ?_ ?_ nofun
    · intro t g' hg
      cases hg
      exact ⟨rfl, rfl⟩
    · intro t ht
      exact (by simpa [Stage.hasWaited] using ht : s = t).symm
  | subscribed s g => exact sound_look h hc (by rw [hstage]; rfl)
  | parked s g woken =>
    dsimp only
    split
    · exact sound_look h hc (by rw [hstage]; rfl)
    · exact h
  | connecting s d => exact h
  | connected s d conn =>
    have hpool : Sound { pool with drivers := pool.drivers.filter (fun d => !(pool.conn d).ended) ++ [conn] } :=
      h.mono rfl rfl rfl rfl (fun _ he => he) id rfl
    apply sound_holding hpool hc (s := s) (d := d)
    · rw [hstage]
      rfl
    · rfl
    · exact id
  | filed s d conn closed => exact sound_publish h hc hstage
  | failing s d cause => exact sound_failing h hc hstage
  | dropping s d =>
    refine sound_settle h hc (s := s) (d := d) (by rw [hstage]; rfl) (by simp [Dial.number]) nofun nofun (left _) ?_
    simp [Stage.result]
  | leaving result => exact sound_release h hc hstage
  | «over» result => exact h

theorem Sound.drained {pool' : Pool ο ε} (h : Sound pool) (hzero : pool.acquires = 0)
    (hcallers : pool'.callers = pool.callers) (hdials : pool'.dials = pool.dials)
    (hfailures : pool'.failures = pool.failures) (hclosed : pool'.closed = pool.closed)
    (hacquires : pool'.acquires = pool.acquires)
    (hslots : ∀ s, (pool'.slot s).state = (pool.slot s).state ∨ (pool'.slot s).state = .idle)
    (hentries : ∀ e ∈ pool'.connections, e.2 < pool'.slots.length ∧
      ∀ e' ∈ pool'.connections, e.1 = e'.1 ∨ e.2 = e'.2 → e = e') : Sound pool' := by
  have hnone : ∀ {i : ℕ} {c : Caller ο ε}, pool.callers[i]? = some c → c.stage.slot = none := by
    intro i c hc
    have hcount := h.acquires
    rw [hzero] at hcount
    have hidle := List.countP_eq_zero.mp hcount.symm c (List.mem_of_getElem? hc)
    cases hslot : c.stage.slot with
    | none => rfl
    | some s => exact absurd (Stage.counted_of_slot hslot) hidle
  have hdial : ∀ s d, (pool.slot s).state ≠ .dialing d := by
    intro s d hd
    obtain ⟨i, c, hc, hd⟩ := h.dialer s d hd
    have := (hnone hc).symm.trans (Stage.slot_of_dial hd)
    cases this
  constructor
  case fits =>
    intro i c hc
    rw [hcallers] at hc
    have hfits := h.fits i c hc
    have hslot := hnone hc
    exact {
      known := by simp [hslot]
      holds := fun s d hd => by rw [Stage.slot_of_dial hd] at hslot; cases hslot
      waits := fun s g hg => by rw [Stage.slot_of_waits hg] at hslot; cases hslot
      parked := fun s g hg => by rw [hg] at hslot; cases hslot
      since := fun s hs => by rw [Stage.slot_of_hasWaited hs] at hslot; cases hslot
      awaited := by
        rw [hdials]
        exact hfits.awaited
      early := hfits.early
      single := hfits.single
      sparing := hfits.sparing
      noted := hfits.noted.mono (by simp [hfailures]) (by simp [hclosed])
      answers := fun r hr => by
        have := hfits.answers r hr
        match r with
        | .ok handed => exact this
        | .error (.dial number cause) => exact ⟨hfailures ▸ this.1, this.2⟩
        | .error .shutDown => exact hclosed.trans this }
  case dialer =>
    intro s d hd
    rcases hslots s with hsame | hidle
    · exact absurd (hsame.symm.trans hd) (hdial s d)
    · exact absurd (hidle.symm.trans hd) nofun
  case unique =>
    rw [hcallers]
    exact h.unique
  case fresh =>
    intro s d hd
    rcases hslots s with hsame | hidle
    · rw [hsame] at hd
      rw [hdials]
      exact h.fresh s d hd
    · rw [hidle] at hd
      cases hd
  case failed =>
    intro s d cause hd
    rcases hslots s with hsame | hidle
    · rw [hfailures]
      exact h.failed s d cause (hsame.symm.trans hd)
    · exact absurd (hidle.symm.trans hd) nofun
  case entries => exact hentries
  case acquires =>
    rw [hacquires, hcallers]
    exact h.acquires

end Steps

/-! ## Calls and drains -/

/-- A drain goes past its first step only when no call is under way, and none is once the pool is closed. -/
structure Quiet (pool : Pool ο ε) : Prop where
  watch : pool.acquiresWatch = pool.acquires
  opened : pool.closed = false → pool.drains = [] ∧ Shutdown.elected ∉ pool.shutdowns
  calm : ∀ drain ∈ pool.drains, drain ≠ .waiting → pool.acquires = 0

/-- What happens to the count of the calls that are under way. -/
inductive Counts (pool pool' : Pool ο ε) : Prop
  | same (h : pool'.acquires = pool.acquires) (hwatch : pool'.acquiresWatch = pool.acquiresWatch)
  | enters (hopen : pool.closed = false) (hwatch : pool'.acquiresWatch = pool'.acquires)
  | leaves (h : pool'.acquires = pool.acquires - 1) (hwatch : pool'.acquiresWatch = pool'.acquires)

/-- The part of a step that the callers take is none of the business of those who shut the pool down. -/
structure Aside (pool pool' : Pool ο ε) : Prop where
  closed : pool'.closed = pool.closed
  shutdowns : pool'.shutdowns = pool.shutdowns
  drains : pool'.drains = pool.drains
  finished : pool'.finished = pool.finished
  counts : Counts pool pool'

theorem Aside.refl (pool : Pool ο ε) : Aside pool pool := ⟨rfl, rfl, rfl, rfl, .same rfl rfl⟩

theorem Quiet.aside (h : Quiet pool) (haside : Aside pool pool') : Quiet pool' := by
  obtain ⟨hclosed, hshutdowns, hdrains, -, hcounts⟩ := haside
  constructor
  · cases hcounts with
    | same hacquires hwatch => rw [hwatch, hacquires, h.watch]
    | enters hopen hwatch => exact hwatch
    | leaves hacquires hwatch => exact hwatch
  · rw [hclosed, hshutdowns, hdrains]
    exact h.opened
  · intro drain hdrain hpast
    rw [hdrains] at hdrain
    have hzero := h.calm drain hdrain hpast
    cases hcounts with
    | same hacquires hwatch => rw [hacquires, hzero]
    | enters hopen hwatch =>
      rw [(h.opened hopen).1] at hdrain
      cases hdrain
    | leaves hacquires hwatch => rw [hacquires, hzero]

section Aside
variable [DecidableEq ο] (pool : Pool ο ε) (i : ℕ)

theorem aside_advance : Aside pool (pool.advance i) := by
  have hclaim : ∀ s waited, Aside pool (pool.claim i s waited) := fun _ _ => ⟨rfl, rfl, rfl, rfl, .same rfl rfl⟩
  rw [Pool.advance]
  split
  · exact .refl _
  rename_i c hc
  cases c.stage with
  | entering =>
    show Aside pool (pool.register i)
    rw [Pool.register]
    split
    · exact ⟨rfl, rfl, rfl, rfl, .same rfl rfl⟩
    · rename_i hopen
      exact ⟨rfl, rfl, rfl, rfl, .enters (by simpa using hopen) rfl⟩
  | registered =>
    show Aside pool (pool.slotFor i c.origin)
    rw [Pool.slotFor]
    repeat' split
    all_goals exact ⟨rfl, rfl, rfl, rfl, .same rfl rfl⟩
  | deciding s waited =>
    show Aside pool (pool.decide i s waited)
    rw [Pool.decide]
    repeat' split
    all_goals first | exact hclaim _ _ | exact ⟨rfl, rfl, rfl, rfl, .same rfl rfl⟩
  | told s g => exact ⟨rfl, rfl, rfl, rfl, .same rfl rfl⟩
  | subscribed s g =>
    show Aside pool (pool.look i s g)
    rw [Pool.look]
    split
    all_goals exact ⟨rfl, rfl, rfl, rfl, .same rfl rfl⟩
  | parked s g woken =>
    dsimp only
    split
    · rw [Pool.look]
      split
      all_goals exact ⟨rfl, rfl, rfl, rfl, .same rfl rfl⟩
    · exact .refl _
  | connecting s d => exact .refl _
  | connected s d conn => exact ⟨rfl, rfl, rfl, rfl, .same rfl rfl⟩
  | filed s d conn closed =>
    show Aside pool (pool.publish i s conn closed)
    rw [Pool.publish]
    split
    all_goals exact ⟨rfl, rfl, rfl, rfl, .same rfl rfl⟩
  | failing s d cause => exact ⟨rfl, rfl, rfl, rfl, .same rfl rfl⟩
  | dropping s d => exact ⟨rfl, rfl, rfl, rfl, .same rfl rfl⟩
  | leaving result => exact ⟨rfl, rfl, rfl, rfl, .leaves rfl rfl⟩
  | «over» result => exact .refl _

omit [DecidableEq ο] in
theorem aside_connect (outcome : Except ε Unit) : Aside pool (pool.connect i outcome) := by
  rw [Pool.connect]
  repeat' split
  all_goals exact ⟨rfl, rfl, rfl, rfl, .same rfl rfl⟩

omit [DecidableEq ο] in
theorem aside_cancel : Aside pool (pool.cancel i) := by
  rw [Pool.cancel]
  repeat' split
  all_goals exact ⟨rfl, rfl, rfl, rfl, .same rfl rfl⟩

end Aside

section Drains
variable {pool : Pool ο ε}

theorem quiet_advanceShutdown (h : Quiet pool) (j : ℕ) : Quiet (pool.advanceShutdown j) := by
  rw [Pool.advanceShutdown]
  split
  · exact ⟨h.watch, nofun, h.calm⟩
  · rename_i helected
    have hmem := List.mem_of_getElem? helected
    refine ⟨h.watch, fun hopen => absurd hmem (h.opened hopen).2, fun drain hdrain hpast => ?_⟩
    rcases List.mem_append.mp hdrain with hdrain | hdrain
    · exact h.calm drain hdrain hpast
    · exact absurd (List.mem_singleton.mp hdrain) hpast
  · split
    · refine ⟨h.watch, fun hopen => ⟨(h.opened hopen).1, fun hmem => ?_⟩, h.calm⟩
      rcases List.mem_or_eq_of_mem_set hmem with hmem | heq
      · exact (h.opened hopen).2 hmem
      · cases heq
    · exact h
  · exact h

theorem quiet_cancelShutdown (h : Quiet pool) (j : ℕ) : Quiet (pool.cancelShutdown j) := by
  rw [Pool.cancelShutdown]
  split
  · refine ⟨h.watch, fun hopen => ⟨(h.opened hopen).1, fun hmem => ?_⟩, h.calm⟩
    rcases List.mem_or_eq_of_mem_set hmem with hmem | heq
    · exact (h.opened hopen).2 hmem
    · cases heq
  · exact h

theorem Quiet.drain (h : Quiet pool) {pool' : Pool ο ε} {k : ℕ} {drain : Drain} (hget : pool.drains[k]? = some drain)
    (hclosed : pool'.closed = pool.closed) (hacquires : pool'.acquires = pool.acquires)
    (hwatch : pool'.acquiresWatch = pool.acquiresWatch) (hzero : pool.acquires = 0) : Quiet pool' := by
  refine ⟨by rw [hwatch, hacquires, h.watch], fun hopen => ?_, fun _ _ _ => by rw [hacquires, hzero]⟩
  rw [hclosed] at hopen
  have hnone := (h.opened hopen).1
  rw [hnone] at hget
  cases hget

variable (pool) in
theorem windDown_slot (s t : ℕ) : ((pool.windDown s).slot t).state = (pool.slot t).state ∨
    ((pool.windDown s).slot t).state = .idle := by
  have hslot : (pool.windDown s).slot t =
      if s = t ∧ t < pool.slots.length then { pool.slot t with state := .idle } else pool.slot t := by
    rw [Pool.windDown]
    split
    all_goals exact slot_modify s t _ _
  rw [hslot]
  split
  · exact .inr rfl
  · exact .inl rfl

variable (pool) in
theorem windDown_eq (s : ℕ) : ∃ conns, pool.windDown s =
    { pool with conns, slots := pool.slots.modify s fun slot => { slot with state := .idle } } := by
  rw [Pool.windDown]
  split
  · exact ⟨_, rfl⟩
  · exact ⟨_, rfl⟩

theorem sound_wind (h : Sound pool) (hquiet : Quiet pool) (k s : ℕ) :
    Sound (pool.wind k s) ∧ Quiet (pool.wind k s) := by
  rw [Pool.wind]
  split
  · rename_i slots drivers hget
    split
    · have hzero := hquiet.calm _ (List.mem_of_getElem? hget) nofun
      have hslot := windDown_slot pool s
      obtain ⟨conns, hwind⟩ := windDown_eq pool s
      rw [hwind] at hslot ⊢
      refine ⟨h.drained hzero rfl rfl rfl rfl rfl hslot ?_, hquiet.drain hget rfl rfl rfl hzero⟩
      simpa using h.entries
    · exact ⟨h, hquiet⟩
  · exact ⟨h, hquiet⟩

theorem sound_advanceDrain (h : Sound pool) (hquiet : Quiet pool) (k : ℕ) :
    Sound (pool.advanceDrain k) ∧ Quiet (pool.advanceDrain k) := by
  have hsame : ∀ {pool' : Pool ο ε}, pool'.callers = pool.callers → pool'.slots = pool.slots →
      pool'.connections = pool.connections → pool'.dials = pool.dials → pool'.failures = pool.failures →
      pool'.closed = pool.closed → pool'.acquires = pool.acquires → Sound pool' := by
    intro pool' hcallers hslots hconnections hdials hfailures hclosed hacquires
    exact h.mono hcallers hslots hconnections hdials (by simp [hfailures]) (by simp [hclosed]) hacquires
  rw [Pool.advanceDrain]
  split
  · rename_i hget
    split
    · rename_i hzero
      rw [hquiet.watch] at hzero
      exact ⟨hsame rfl rfl rfl rfl rfl rfl rfl, hquiet.drain hget rfl rfl rfl hzero⟩
    · exact ⟨h, hquiet⟩
  · rename_i hget
    have hzero := hquiet.calm _ (List.mem_of_getElem? hget) nofun
    refine ⟨h.drained hzero rfl rfl rfl rfl rfl (fun _ => .inl rfl) ?_, hquiet.drain hget rfl rfl rfl hzero⟩
    simp
  · rename_i drivers hget
    have hzero := hquiet.calm _ (List.mem_of_getElem? hget) nofun
    exact ⟨hsame rfl rfl rfl rfl rfl rfl rfl, hquiet.drain hget rfl rfl rfl hzero⟩
  · rename_i d drivers hget
    have hzero := hquiet.calm _ (List.mem_of_getElem? hget) nofun
    split
    · exact ⟨hsame rfl rfl rfl rfl rfl rfl rfl, hquiet.drain hget rfl rfl rfl hzero⟩
    · exact ⟨h, hquiet⟩
  · rename_i hget
    have hzero := hquiet.calm _ (List.mem_of_getElem? hget) nofun
    exact ⟨hsame rfl rfl rfl rfl rfl rfl rfl, hquiet.drain hget rfl rfl rfl hzero⟩
  · exact ⟨h, hquiet⟩

theorem sound_call (h : Sound pool) (origin : ο) : Sound { pool with callers := pool.callers ++ [{ origin }] } := by
  have hback : ∀ {i : ℕ} {c : Caller ο ε}, (pool.callers ++ [({ origin } : Caller ο ε)])[i]? = some c →
      pool.callers[i]? = some c ∨ c = { origin } := by
    intro i c hc
    rw [List.getElem?_append] at hc
    split at hc
    · exact .inl hc
    · exact .inr (List.mem_singleton.mp (List.mem_of_getElem? hc))
  constructor
  case fits =>
    intro i c hc
    rcases hback hc with hc | rfl
    · exact (h.fits i c hc).mono (fun _ _ => rfl) (fun _ h => h) (fun _ h => h) id (Nat.le_refl _)
    · exact {
        known := nofun
        holds := nofun
        waits := nofun
        parked := nofun
        since := nofun
        awaited := nofun
        early := fun _ => rfl
        single := Nat.zero_le _
        sparing := nofun
        noted := True.intro
        answers := nofun }
  case dialer =>
    intro s d hd
    obtain ⟨i, c, hc, hd⟩ := h.dialer s d hd
    refine ⟨i, c, ?_, hd⟩
    rw [List.getElem?_append_left (List.getElem?_eq_some_iff.mp hc).1]
    exact hc
  case unique =>
    intro i j c c' s s' d hc hc' hd hd'
    rcases hback hc with hc | rfl
    · rcases hback hc' with hc' | rfl
      · exact h.unique _ _ _ _ _ _ _ hc hc' hd hd'
      · cases hd'
    · cases hd
  case fresh => exact h.fresh
  case failed => exact h.failed
  case entries => exact h.entries
  case acquires =>
    show pool.acquires = _
    rw [h.acquires]
    simp [Stage.counted]

end Drains

section Runs
variable [DecidableEq ο]

theorem sound_step {pool : Pool ο ε} (action : Action ο ε) (h : Sound pool ∧ Quiet pool) :
    Sound (step pool action) ∧ Quiet (step pool action) := by
  obtain ⟨hsound, hquiet⟩ := h
  cases action with
  | call origin => exact ⟨sound_call hsound origin, hquiet.watch, hquiet.opened, hquiet.calm⟩
  | advance i => exact ⟨sound_advance hsound i, hquiet.aside (aside_advance pool i)⟩
  | connect i outcome => exact ⟨sound_connect hsound i outcome, hquiet.aside (aside_connect pool i outcome)⟩
  | cancel i => exact ⟨sound_cancel hsound i, hquiet.aside (aside_cancel pool i)⟩
  | shutdown =>
    refine ⟨hsound.mono rfl rfl rfl rfl (fun _ he => he) id rfl, hquiet.watch, fun hopen => ?_, hquiet.calm⟩
    obtain ⟨hdrains, helected⟩ := hquiet.opened hopen
    exact ⟨hdrains, by simpa [step] using helected⟩
  | advanceShutdown j =>
    refine ⟨?_, quiet_advanceShutdown hquiet j⟩
    rw [step, Pool.advanceShutdown]
    repeat' split
    all_goals first
      | exact hsound
      | exact hsound.mono rfl rfl rfl rfl (fun _ he => he) (fun _ => rfl) rfl
      | exact hsound.mono rfl rfl rfl rfl (fun _ he => he) id rfl
  | cancelShutdown j =>
    refine ⟨?_, quiet_cancelShutdown hquiet j⟩
    rw [step, Pool.cancelShutdown]
    split
    · exact hsound.mono rfl rfl rfl rfl (fun _ he => he) id rfl
    · exact hsound
  | advanceDrain k => exact sound_advanceDrain hsound hquiet k
  | wind k s => exact sound_wind hsound hquiet k s
  | connClosed c | connRefuses c | driverEnds c =>
    exact ⟨hsound.mono rfl rfl rfl rfl (fun _ he => he) id rfl, hquiet.watch, hquiet.opened, hquiet.calm⟩

theorem sound_reached (actions : List (Action ο ε)) :
    Sound (reached actions) ∧ Quiet (reached actions) := by
  refine invariant_reached (I := fun pool => Sound pool ∧ Quiet pool) ?_ (fun _ action => sound_step action) actions
  constructor
  · constructor <;> simp [Pool.slot, Dial.number]
  · exact ⟨rfl, fun _ => ⟨rfl, by simp⟩, nofun⟩

/-! ## Single flight -/

/-- What is promised to those who ask for connections to an origin. -/
structure SingleFlight (pool : Pool ο ε) (origin : ο) : Prop where
  /-- At most one dial for the origin is under way. -/
  one : ∀ (i j : ℕ) (c c' : Caller ο ε) dial dial', pool.callers[i]? = some c → pool.callers[j]? = some c' →
    c.origin = origin → c'.origin = origin → c.stage.dial = some dial → c'.stage.dial = some dial' → i = j
  /-- The slot is `Dialing` exactly when one is. -/
  dialing : ∀ s, (origin, s) ∈ pool.connections → ((∃ d, (pool.slot s).state = .dialing d) ↔
    ∃ (i : ℕ) (c : Caller ο ε), pool.callers[i]? = some c ∧ c.origin = origin ∧ c.stage.dial.isSome = true)
  /-- A call begins one dial at most, and none over a `Failed` that it woke to. -/
  begins : ∀ c ∈ pool.callers, c.origin = origin → c.begun.length ≤ 1 ∧
    ∀ b ∈ c.begun, b.waited = true → b.found.isFailed = false
  /-- An error is that of a dial the call began, or of one that ended while the call waited. -/
  errors : ∀ c ∈ pool.callers, c.origin = origin → ∀ error, c.stage.result = some (.error error) →
    match error with
    | .dial number cause => (number, cause) ∈ pool.failures ∧
        ((∃ b ∈ c.begun, b.number = number) ∨ ∃ first ∈ c.awaited, first ≤ number)
    | .shutDown => pool.closed = true
  /-- No handle that was seen closed or refusing is handed out. -/
  handles : ∀ c ∈ pool.callers, c.origin = origin → ∀ handed, c.stage.result = some (.ok handed) →
    ∀ seen, handed.seen = some seen → seen.isClosed = false ∧ seen.isRefusing = false
  /-- A call that is parked waits for a slot that is still `Dialing`, with the generation it captured. -/
  parked : ∀ c ∈ pool.callers, c.origin = origin → ∀ s generation, c.stage = .parked s generation false →
    (origin, s) ∈ pool.connections ∧ (pool.slot s).settled = generation ∧ ∃ d, (pool.slot s).state = .dialing d

end Runs

end Ngnet.OriginPool
