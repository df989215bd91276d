import Ngnet.QmuxVarints

/-!
# The frame boundaries of an HTTP/2 connection

`FrameProgress` of `state.rs` of the crate `ngnet-h2` counts the octets that a session has accepted. A slice or an
index out of its bounds and a subtraction below zero are panics.

The counter takes its input in slices. What it comes to is what taking one octet after another comes to, so that it
does not depend on where the input was cut, and it stands inside a frame unless the octets are whole frames.
-/

namespace Ngnet.Http2FrameProgress
open BigEndianBytes QmuxVarints

/-! ## The program -/

inductive Framing
  | preface (remaining : ℕ)
  | header (arrived : ℕ)
  | payload (remaining : ℕ)
  deriving DecidableEq, Repr

structure FrameProgress where
  state : Framing
  pending : Bytes
  deriving DecidableEq, Repr

def frameHeader : ℕ := 9

def clientPreface : ℕ := 24

/-- The length that the first three octets of a header carry. -/
def payloadLength (header : Bytes) : ℕ := (header.take 3).foldl shiftIn 0

/-- `&input[taken..]`. -/
def dropFront (input : Bytes) (taken : ℕ) : Option Bytes :=
  if taken ≤ input.length then some (input.drop taken) else none

/-- `copy_from_slice` into the part of `target` that starts at `start`. -/
def copyInto (target : Bytes) (start : ℕ) (source : Bytes) : Option Bytes :=
  if start + source.length ≤ target.length then
    some (target.take start ++ source ++ target.drop (start + source.length))
  else none

/-- Where a whole header leads. -/
def behindHeader (pending : Bytes) : Framing :=
  if payloadLength pending = 0 then .header 0 else .payload (payloadLength pending)

namespace FrameProgress

def new (expectsPreface : Bool) : FrameProgress where
  state := if expectsPreface then .preface clientPreface else .header 0
  pending := List.replicate frameHeader 0

/-- One turn of the loop of `advance`, with what is left of the input. -/
def turn : FrameProgress → Bytes → Option (FrameProgress × Bytes)
  | ⟨.preface remaining, pending⟩, input => do
    let taken := min remaining input.length
    let input ← dropFront input taken
    some (⟨if taken = remaining then .header 0 else .preface (remaining - taken), pending⟩, input)
  | ⟨.header arrived, pending⟩, input =>
    if frameHeader < arrived then none
    else do
      let want := frameHeader - arrived
      let taken := min want input.length
      let pending ← copyInto pending arrived (input.take taken)
      -- A header split across reads returns; it has taken the whole input.
      if taken < want then some (⟨.header (arrived + taken), pending⟩, [])
      else
        let input ← dropFront input taken
        some (⟨behindHeader pending, pending⟩, input)
  | ⟨.payload remaining, pending⟩, input => do
    let taken := min remaining input.length
    let input ← dropFront input taken
    some (⟨if taken = remaining then .header 0 else .payload (remaining - taken), pending⟩, input)

end FrameProgress

open FrameProgress

/-- A count that has run out, or a header that is whole, takes a turn without taking an octet. -/
def idling : Framing → ℕ
  | .preface remaining => if remaining = 0 then 1 else 0
  | .header arrived => if arrived < frameHeader then 0 else 1
  | .payload remaining => if remaining = 0 then 1 else 0

theorem idling_left (c : ℕ → Framing) (hc : ∀ n, 0 < n → idling (c n) = 0) {taken remaining : ℕ} (h : taken ≤ remaining) :
    idling (if taken = remaining then .header 0 else c (remaining - taken)) = 0 := by
  split
  · rfl
  · exact hc _ (by omega)

variable {n : ℕ}

theorem idling_preface (h : 0 < n) : idling (.preface n) = 0 := if_neg h.ne'

theorem idling_payload (h : 0 < n) : idling (.payload n) = 0 := if_neg h.ne'

theorem idling_behindHeader (pending : Bytes) : idling (behindHeader pending) = 0 := by
  rw [behindHeader]
  split
  · rfl
  · exact idling_payload (Nat.pos_of_ne_zero ‹_›)

variable {p : FrameProgress} {input : Bytes}

theorem turn_lt {q : FrameProgress} {rest : Bytes} (hne : input ≠ []) (h : p.turn input = some (q, rest)) :
    2 * rest.length + idling q.state < 2 * input.length + idling p.state := by
  have hpos := List.length_pos_iff.mpr hne
  obtain ⟨remaining | arrived | remaining, pending⟩ := p
  case header =>
    simp only [turn] at h
    split at h
    · cases h
    obtain ⟨pending', -, h⟩ := Option.bind_eq_some_iff.mp h
    split at h
    · rename_i hshort
      cases h
      have hmore : idling (.header (arrived + min (frameHeader - arrived) input.length)) = 0 := if_pos (by omega)
      simp only [hmore, List.length_nil]
      omega
    · obtain ⟨rest', hrest, h⟩ := Option.bind_eq_some_iff.mp h
      cases h
      rw [dropFront, if_pos (Nat.min_le_right ..)] at hrest
      cases hrest
      rw [idling_behindHeader, List.length_drop, idling]
      split <;> omega
  case preface =>
    simp only [turn] at h
    obtain ⟨rest', hrest, h⟩ := Option.bind_eq_some_iff.mp h
    cases h
    rw [dropFront, if_pos (Nat.min_le_right ..)] at hrest
    cases hrest
    have hidle := idling_left .preface (fun _ => idling_preface) (Nat.min_le_left remaining input.length)
    rw [hidle, List.length_drop, idling]
    split <;> omega
  case payload =>
    simp only [turn] at h
    obtain ⟨rest', hrest, h⟩ := Option.bind_eq_some_iff.mp h
    cases h
    rw [dropFront, if_pos (Nat.min_le_right ..)] at hrest
    cases hrest
    have hidle := idling_left .payload (fun _ => idling_payload) (Nat.min_le_left remaining input.length)
    rw [hidle, List.length_drop, idling]
    split <;> omega

/-- `advance`. -/
def FrameProgress.advance (p : FrameProgress) (input : Bytes) : Option FrameProgress :=
  if _ : input = [] then some p
  else
    match _ : p.turn input with
    | none => none
    | some (q, rest) => q.advance rest
termination_by 2 * input.length + idling p.state
decreasing_by exact turn_lt ‹_› ‹_›

def FrameProgress.inFrame (p : FrameProgress) : Bool :=
  match p.state with
  | .preface _ => false
  | .header arrived => 0 < arrived
  | .payload _ => true

/-! ## One octet at a time -/

/-- What one octet does. -/
def absorb (p : FrameProgress) (octet : UInt8) : FrameProgress :=
  match p.state with
  | .preface remaining => { p with state := if remaining ≤ 1 then .header 0 else .preface (remaining - 1) }
  | .header arrived =>
    let pending := p.pending.set arrived octet
    ⟨if arrived + 1 < frameHeader then .header (arrived + 1) else behindHeader pending, pending⟩
  | .payload remaining => { p with state := if remaining ≤ 1 then .header 0 else .payload (remaining - 1) }

/-- The counts have not run out, and the header in arrival is not whole. -/
def Going : Framing → Prop
  | .preface remaining => 0 < remaining
  | .header arrived => arrived < frameHeader
  | .payload remaining => 0 < remaining

structure Sound (p : FrameProgress) : Prop where
  going : Going p.state
  nine : p.pending.length = frameHeader

theorem sound_new (expectsPreface : Bool) : Sound (new expectsPreface) := by
  constructor
  · cases expectsPreface <;> exact Nat.succ_pos _
  · rfl

theorem going_behindHeader (pending : Bytes) : Going (behindHeader pending) := by
  rw [behindHeader]
  split
  · exact Nat.succ_pos _
  · exact Nat.pos_of_ne_zero ‹_›

theorem sound_absorb (h : Sound p) (octet : UInt8) : Sound (absorb p octet) := by
  obtain ⟨remaining | arrived | remaining, pending⟩ := p
  · refine ⟨?_, h.nine⟩
    simp only [absorb]
    split
    · exact Nat.succ_pos _
    · exact Nat.sub_pos_of_lt (by omega)
  · refine ⟨?_, (List.length_set ..).trans h.nine⟩
    simp only [absorb]
    split
    · assumption
    · exact going_behindHeader _
  · refine ⟨?_, h.nine⟩
    simp only [absorb]
    split
    · exact Nat.succ_pos _
    · exact Nat.sub_pos_of_lt (by omega)

theorem sound_foldl (h : Sound p) (input : Bytes) : Sound (input.foldl absorb p) := by
  induction input generalizing p with
  | nil => exact h
  | cons octet rest ih => exact ih (sound_absorb h octet)

theorem absorb_count (c : ℕ → Framing) (hc : ∀ n pending octet,
    absorb ⟨c n, pending⟩ octet = ⟨if n ≤ 1 then .header 0 else c (n - 1), pending⟩) (pending : Bytes)
    (hpos : 0 < n) (hlen : input.length ≤ n) :
    input.foldl absorb ⟨c n, pending⟩ = ⟨if input.length = n then .header 0 else c (n - input.length), pending⟩ := by
  induction input generalizing n with
  | nil => rw [List.foldl_nil, List.length_nil, if_neg (by omega), Nat.sub_zero]
  | cons octet rest ih =>
    rw [List.length_cons] at hlen ⊢
    rw [List.foldl_cons, hc]
    by_cases hone : n ≤ 1
    · have hrest : rest = [] := List.eq_nil_of_length_eq_zero (by omega)
      rw [if_pos hone, hrest, List.foldl_nil, List.length_nil, if_pos (by omega)]
    · rw [if_neg hone, ih (by omega) (by omega)]
      have hsub : n - 1 - rest.length = n - (rest.length + 1) := by omega
      rw [hsub]
      by_cases hall : rest.length = n - 1
      · rw [if_pos hall, if_pos (by omega)]
      · rw [if_neg hall, if_neg (by omega)]

theorem absorb_header {pending : Bytes} {arrived : ℕ} (hnine : pending.length = frameHeader)
    (harrived : arrived < frameHeader) (hlen : arrived + input.length ≤ frameHeader) :
    input.foldl absorb ⟨.header arrived, pending⟩ =
      let pending := pending.take arrived ++ input ++ pending.drop (arrived + input.length)
      ⟨if arrived + input.length < frameHeader then .header (arrived + input.length) else behindHeader pending, pending⟩ := by
  induction input generalizing arrived pending with
  | nil => simp [harrived]
  | cons octet rest ih =>
    rw [List.length_cons] at hlen ⊢
    have hset : (pending.set arrived octet).take (arrived + 1) = pending.take arrived ++ [octet] := by
      rw [List.take_add_one, List.take_set_of_le (Nat.le_refl _), List.getElem?_set_self (by omega)]
      rfl
    have hdrop (n : ℕ) : (pending.set arrived octet).drop (arrived + 1 + n) = pending.drop (arrived + (n + 1)) := by
      rw [List.drop_set_of_lt (by omega), Nat.add_assoc, Nat.add_comm 1 n]
    rw [List.foldl_cons]
    by_cases hmore : arrived + 1 < frameHeader
    · have hstep : absorb ⟨.header arrived, pending⟩ octet = ⟨.header (arrived + 1), pending.set arrived octet⟩ := by
        simp only [absorb, if_pos hmore]
      rw [hstep, ih ((List.length_set ..).trans hnine) hmore (by omega), hset, hdrop]
      simp only [List.append_assoc, List.singleton_append]
      rw [show arrived + 1 + rest.length = arrived + (rest.length + 1) by omega]
    · have hrest : rest = [] := List.eq_nil_of_length_eq_zero (by omega)
      have hwhole : pending.set arrived octet = pending.take arrived ++ [octet] ++ pending.drop (arrived + (0 + 1)) := by
        rw [← hset, ← hdrop 0, Nat.add_zero, List.take_append_drop]
      simp only [hrest, List.foldl_nil, List.length_nil, Nat.zero_add, absorb, if_neg hmore, hwhole]

theorem turn_eq (h : Sound p) (hne : input ≠ []) :
    ∃ k, 0 < k ∧ k ≤ input.length ∧ p.turn input = some ((input.take k).foldl absorb p, input.drop k) := by
  have hpos := List.length_pos_iff.mpr hne
  obtain ⟨remaining | arrived | remaining, pending⟩ := p
  · have hremaining : 0 < remaining := h.going
    refine ⟨min remaining input.length, by omega, Nat.min_le_right .., ?_⟩
    have hlen : (input.take (min remaining input.length)).length = min remaining input.length := by
      rw [List.length_take]
      omega
    rw [absorb_count .preface (fun _ _ _ => rfl) pending hremaining (by omega), hlen]
    simp [turn, dropFront]
  · have harrived : arrived < frameHeader := h.going
    have hnine : pending.length = frameHeader := h.nine
    refine ⟨min (frameHeader - arrived) input.length, by omega, Nat.min_le_right .., ?_⟩
    have hlen : (input.take (min (frameHeader - arrived) input.length)).length = min (frameHeader - arrived) input.length := by
      rw [List.length_take]
      omega
    rw [absorb_header hnine harrived (by omega)]
    simp only [turn, if_neg (Nat.not_lt.mpr harrived.le), copyInto, hlen, hnine,
      if_pos (show arrived + min (frameHeader - arrived) input.length ≤ frameHeader by omega), Option.bind_eq_bind,
      Option.bind_some, dropFront, if_pos (Nat.min_le_right (frameHeader - arrived) input.length)]
    split
    · rename_i hshort
      have hall : input.drop (min (frameHeader - arrived) input.length) = [] := List.drop_eq_nil_of_le (by omega)
      rw [if_pos (by omega), hall]
    · rename_i hwhole
      rw [if_neg (by omega)]
  · have hremaining : 0 < remaining := h.going
    refine ⟨min remaining input.length, by omega, Nat.min_le_right .., ?_⟩
    have hlen : (input.take (min remaining input.length)).length = min remaining input.length := by
      rw [List.length_take]
      omega
    rw [absorb_count .payload (fun _ _ _ => rfl) pending hremaining (by omega), hlen]
    simp [turn, dropFront]

theorem advance_eq (h : Sound p) (input : Bytes) : p.advance input = some (input.foldl absorb p) := by
  induction hn : input.length using Nat.strong_induction_on generalizing p input with
  | _ n ih =>
    rw [advance]
    split
    · rename_i hnil
      rw [hnil]
      rfl
    · rename_i hne
      obtain ⟨k, hpos, hlen, hturn⟩ := turn_eq h hne
      have hrest := ih (input.drop k).length (by rw [List.length_drop]; omega) (sound_foldl h (input.take k)) _ rfl
      rw [← List.foldl_append, List.take_append_drop] at hrest
      split
      · rename_i hnone
        rw [hturn] at hnone
        cases hnone
      · rename_i q rest hsome
        rw [hturn] at hsome
        cases hsome
        exact hrest

/-! ## Frames -/

/-- Nothing but complete frames: a header of nine octets, and the payload whose length it carries. -/
inductive Frames : Bytes → Prop
  | nil : Frames []
  | frame {header payload rest : Bytes} (nine : header.length = frameHeader)
    (whole : payload.length = payloadLength header) (more : Frames rest) : Frames (header ++ payload ++ rest)

theorem frames_header {header rest : Bytes} (hnine : header.length = frameHeader) :
    Frames (header ++ rest) ↔ payloadLength header ≤ rest.length ∧ Frames (rest.drop (payloadLength header)) := by
  constructor
  · intro h
    generalize hs : header ++ rest = s at h
    cases h with
    | nil =>
      rw [List.append_eq_nil_iff] at hs
      rw [hs.1] at hnine
      cases hnine
    | @frame header' payload more hnine' hwhole hmore =>
      rw [List.append_assoc] at hs
      obtain ⟨rfl, rfl⟩ := List.append_inj hs (hnine.trans hnine'.symm)
      rw [List.length_append, List.drop_append_of_le_length (by omega), List.drop_of_length_le (by omega)]
      exact ⟨by omega, hmore⟩
  · rintro ⟨hlen, hmore⟩
    rw [← List.take_append_drop (payloadLength header) rest, ← List.append_assoc]
    exact .frame hnine (by rw [List.length_take]; omega) hmore

theorem frames_short {octets : Bytes} (h : octets.length < frameHeader) : Frames octets ↔ octets = [] := by
  constructor
  · intro hframes
    cases hframes with
    | nil => rfl
    | frame hnine _ _ =>
      rw [List.length_append, List.length_append, hnine] at h
      omega
  · rintro rfl
    exact .nil

theorem inFrame_iff {pending : Bytes} (hnine : pending.length = frameHeader) (octets : Bytes) :
    (octets.foldl absorb ⟨.header 0, pending⟩).inFrame = true ↔ ¬Frames octets := by
  induction hn : octets.length using Nat.strong_induction_on generalizing pending octets with
  | _ n ih =>
    by_cases hshort : octets.length < frameHeader
    · rw [absorb_header hnine (by decide) (by omega), frames_short hshort]
      simp [hshort, inFrame, List.length_pos_iff]
    obtain ⟨header, rest, rfl, hheader⟩ : ∃ header rest, octets = header ++ rest ∧ header.length = frameHeader :=
      ⟨octets.take frameHeader, octets.drop frameHeader, (List.take_append_drop ..).symm, by rw [List.length_take]; omega⟩
    rw [List.length_append, hheader] at hn
    rw [List.foldl_append, absorb_header hnine (by decide) (by rw [hheader]; decide), frames_header hheader]
    simp only [List.take_zero, List.nil_append, hheader, Nat.zero_add, Nat.lt_irrefl, if_false]
    rw [List.drop_of_length_le hnine.le, List.append_nil, behindHeader]
    split
    · rename_i hzero
      rw [hzero, List.drop_zero, ih rest.length (by rw [frameHeader] at hn; omega) hheader rest rfl]
      simp
    rename_i hpos
    by_cases hlong : rest.length < payloadLength header
    · rw [absorb_count .payload (fun _ _ _ => rfl) header (Nat.pos_of_ne_zero hpos) hlong.le, if_neg hlong.ne]
      simp [inFrame, hlong]
    · have hlen : (rest.take (payloadLength header)).length = payloadLength header := by
        rw [List.length_take]
        omega
      rw [← List.take_append_drop (payloadLength header) rest, List.foldl_append,
        absorb_count .payload (fun _ _ _ => rfl) header (Nat.pos_of_ne_zero hpos) hlen.le, if_pos hlen,
        ih (rest.drop (payloadLength header)).length (by rw [List.length_drop, frameHeader] at *; omega) hheader _ rfl,
        List.take_append_drop]
      simp [Nat.not_lt.mp hlong]

/-- Wherever the octets of a connection are cut, the counter comes to the same, and it stands inside a frame unless
they are complete frames behind the preface. -/
theorem frameProgress_exact (expectsPreface : Bool) (pieces : List Bytes) :
    ∃ p, pieces.foldlM advance (new expectsPreface) = some p ∧ (new expectsPreface).advance pieces.flatten = some p ∧
      (p.inFrame = true ↔
        if expectsPreface then clientPreface ≤ pieces.flatten.length ∧ ¬Frames (pieces.flatten.drop clientPreface)
        else ¬Frames pieces.flatten) := by
  have hpieces : ∀ {p : FrameProgress}, Sound p → pieces.foldlM advance p = some (pieces.flatten.foldl absorb p) := by
    induction pieces with
    | nil => exact fun _ => rfl
    | cons piece rest ih =>
      intro p hp
      rw [List.foldlM_cons, advance_eq hp, List.flatten_cons, List.foldl_append]
      exact ih (sound_foldl hp piece)
  have hnew := sound_new expectsPreface
  refine ⟨_, hpieces hnew, advance_eq hnew _, ?_⟩
  generalize pieces.flatten = octets
  cases expectsPreface with
  | false => exact inFrame_iff rfl octets
  | true =>
    rw [if_pos rfl]
    by_cases hshort : octets.length < clientPreface
    · have hcount := absorb_count .preface (fun _ _ _ => rfl) (List.replicate frameHeader 0) (by decide) hshort.le
      rw [if_neg hshort.ne] at hcount
      rw [new, if_pos rfl, hcount]
      simp [inFrame, Nat.not_le.mpr hshort]
    · have hlen : (octets.take clientPreface).length = clientPreface := by
        rw [List.length_take]
        omega
      have hcount := absorb_count .preface (fun _ _ _ => rfl) (List.replicate frameHeader 0) (by decide) hlen.le
      rw [if_pos hlen] at hcount
      have hsplit : octets.foldl absorb (new true) = (octets.drop clientPreface).foldl absorb
          ((octets.take clientPreface).foldl absorb (new true)) := by
        rw [← List.foldl_append, List.take_append_drop]
      rw [hsplit, new, if_pos rfl, hcount, inFrame_iff rfl]
      simp [Nat.not_lt.mp hshort]

end Ngnet.Http2FrameProgress
