import Ngnet.QmuxRecordFramer

/-!
# Length prefixes over eight bytes

`LengthPrefix` of `io/framing.rs` with the array it accumulates into. An index out of the array, and a prefix of its
own declared width that does not decode, are panics. The accumulator refines the one of the record framer, which
keeps a list, and so agrees with the reader, the writer and the length function of the same file.
-/

namespace Ngnet.QmuxPrefixBytes
open BigEndianBytes QmuxVarints QmuxRecordFramer

/-! ## The program -/

/-- A partially received length prefix: the array, and how many bytes of it have arrived. -/
structure PrefixBytes where
  bytes : Vector UInt8 8 := .replicate 8 0
  len : ℕ := 0

namespace PrefixBytes

def isEmpty (p : PrefixBytes) : Bool := p.len = 0

/-- `&self.bytes[..self.len]`. -/
def seen (p : PrefixBytes) : Bytes := p.bytes.toList.take p.len

def width (p : PrefixBytes) : Option ℕ := if 0 < p.len then p.bytes.toList.head?.map encodedWidth else none

/-- The decoded length once it is complete, how many bytes were taken, and what is kept. -/
def feed (p : PrefixBytes) : Bytes → Option (Option ℕ × ℕ × PrefixBytes)
  | [] => some (none, 0, p)
  | byte :: rest =>
    if h : p.len < 8 then
      let p : PrefixBytes := ⟨p.bytes.set p.len byte, p.len + 1⟩
      if p.width = some p.len then
        -- `expect`
        (readVarint p.seen).map fun decoded => (some decoded.1, 1, { p with len := 0 })
      else (p.feed rest).map fun fed => (fed.1, fed.2.1 + 1, fed.2.2)
    else none

/-- The pieces are fed one after another, until the prefix is complete. -/
def feedAll (p : PrefixBytes) : List Bytes → Option (Option ℕ × ℕ × PrefixBytes)
  | [] => some (none, 0, p)
  | piece :: rest => do
    let (complete, taken, p) ← p.feed piece
    if complete.isSome then some (complete, taken, p)
    else
      let (complete, more, p) ← p.feedAll rest
      some (complete, taken + more, p)

end PrefixBytes

/-! ## The accumulator of the framer -/

section Feeding
variable {p : PrefixBytes}

theorem length_seen (p : PrefixBytes) : p.seen.length = min p.len 8 := by
  simp [PrefixBytes.seen]

theorem isEmpty_iff : p.isEmpty = true ↔ p.seen = [] := by
  rw [← List.length_eq_zero_iff, length_seen, PrefixBytes.isEmpty, decide_eq_true_eq]
  omega

theorem room_of_unfinished (h : readVarint p.seen = none) : p.len < 8 := by
  by_contra hlen
  have hseen := length_seen p
  cases hbytes : p.seen with
  | nil =>
    rw [hbytes, List.length_nil] at hseen
    omega
  | cons first rest =>
    rw [hbytes, List.length_cons] at hseen
    have hwidth := encodedWidth_le first
    rw [hbytes, readVarint_cons, if_neg (by omega)] at h
    cases h

theorem seen_set (byte : UInt8) (h : p.len < 8) :
    (⟨p.bytes.set p.len byte, p.len + 1⟩ : PrefixBytes).seen = p.seen ++ [byte] := by
  have hlen : p.len < p.bytes.toList.length := by simpa using h
  simp only [PrefixBytes.seen, Vector.toList_set]
  rw [List.take_add_one, List.take_set_of_le (Nat.le_refl _), List.getElem?_set_self hlen]
  rfl

theorem width_seen (h : p.len ≤ 8) : p.width = LengthPrefix.width ⟨p.seen⟩ := by
  rw [PrefixBytes.width, LengthPrefix.width, PrefixBytes.seen]
  split
  · rename_i hlen
    rw [List.head?_take, if_neg (by omega)]
  · rename_i hlen
    rw [show p.len = 0 by omega]
    rfl

theorem feed_refines (input : Bytes) (h : readVarint p.seen = none) :
    ∃ q, p.feed input = some ((LengthPrefix.feed ⟨p.seen⟩ input).1, (LengthPrefix.feed ⟨p.seen⟩ input).2.1, q) ∧
      (LengthPrefix.feed ⟨p.seen⟩ input).2.2 = ⟨q.seen⟩ := by
  induction input generalizing p with
  | nil => exact ⟨p, rfl, rfl⟩
  | cons byte rest ih =>
    have hroom := room_of_unfinished h
    have hseen := seen_set byte hroom
    have hlength : (p.seen ++ [byte]).length = p.len + 1 := by
      rw [List.length_append, length_seen, List.length_singleton]
      omega
    simp only [PrefixBytes.feed, LengthPrefix.feed, dif_pos hroom]
    rw [width_seen (Nat.succ_le_of_lt hroom), hseen, hlength]
    obtain ⟨hwidth, value, hvalue⟩ | ⟨hwidth, hmore⟩ := readVarint_snoc byte h
    · rw [hlength] at hwidth
      rw [if_pos hwidth, if_pos hwidth, hvalue]
      exact ⟨_, rfl, rfl⟩
    · rw [hlength] at hwidth
      rw [if_neg hwidth, if_neg hwidth]
      rw [← hseen] at hmore
      obtain ⟨q, hfeed, hq⟩ := ih hmore
      rw [hseen] at hfeed hq
      rw [hfeed]
      exact ⟨q, rfl, hq⟩

theorem feed_short {input : Bytes} (h : readVarint (p.seen ++ input) = none) :
    ∃ q, p.feed input = some (none, input.length, q) ∧ q.seen = p.seen ++ input := by
  obtain ⟨q, hfeed, hq⟩ := feed_refines input (readVarint_none_of_append h)
  rw [feed_unfinished h] at hfeed hq
  exact ⟨q, hfeed, (LengthPrefix.mk.inj hq).symm⟩

theorem feed_whole {input : Bytes} {value width : ℕ} (hnone : readVarint p.seen = none)
    (h : readVarint (p.seen ++ input) = some (value, width)) :
    ∃ q, p.feed input = some (some value, width - p.seen.length, q) ∧ q.isEmpty = true := by
  obtain ⟨q, hfeed, hq⟩ := feed_refines input hnone
  rw [(feed_complete hnone h).1] at hfeed hq
  exact ⟨q, hfeed, isEmpty_iff.mpr (LengthPrefix.mk.inj hq).symm⟩

/-! ## Pieces -/

theorem feedAll_short (pieces : List Bytes) (h : readVarint (p.seen ++ pieces.flatten) = none) :
    ∃ q, p.feedAll pieces = some (none, pieces.flatten.length, q) := by
  induction pieces generalizing p with
  | nil => exact ⟨p, rfl⟩
  | cons piece rest ih =>
    rw [List.flatten_cons, ← List.append_assoc] at h
    obtain ⟨q, hfeed, hq⟩ := feed_short (readVarint_none_of_append h)
    obtain ⟨r, hrest⟩ := ih (hq ▸ h)
    refine ⟨r, ?_⟩
    rw [PrefixBytes.feedAll, hfeed, List.flatten_cons, List.length_append]
    simp [hrest]

theorem feedAll_whole (pieces : List Bytes) {value width : ℕ} (hnone : readVarint p.seen = none)
    (h : readVarint (p.seen ++ pieces.flatten) = some (value, width)) :
    ∃ q, p.feedAll pieces = some (some value, width - p.seen.length, q) ∧ q.isEmpty = true := by
  induction pieces generalizing p with
  | nil =>
    rw [List.flatten_nil, List.append_nil, hnone] at h
    cases h
  | cons piece rest ih =>
    cases hpiece : readVarint (p.seen ++ piece) with
    | some decoded =>
      have hsame := readVarint_append rest.flatten hpiece
      rw [List.append_assoc, ← List.flatten_cons, h] at hsame
      cases hsame
      obtain ⟨q, hfeed, hempty⟩ := feed_whole hnone hpiece
      refine ⟨q, ?_, hempty⟩
      rw [PrefixBytes.feedAll, hfeed]
      rfl
    | none =>
      obtain ⟨q, hfeed, hq⟩ := feed_short hpiece
      rw [List.flatten_cons, ← List.append_assoc, ← hq] at h
      obtain ⟨r, hrest, hempty⟩ := ih (hq ▸ hpiece) h
      refine ⟨r, ?_, hempty⟩
      have hwidth := readVarint_width h
      have hlong : p.seen.length + piece.length < width := by
        by_contra hle
        have htake := readVarint_take h
        rw [List.take_append_of_le_length (by rw [hq, List.length_append]; omega)] at htake
        have hshort := readVarint_append (q.seen.drop width) htake
        rw [List.take_append_drop, hq, hpiece] at hshort
        cases hshort
      rw [PrefixBytes.feedAll, hfeed]
      simp only [Option.bind_eq_bind, Option.bind_some, Option.isSome_none, Bool.false_eq_true, if_false, hrest, hq,
        List.length_append, Option.some.injEq, Prod.mk.injEq, true_and, and_true]
      omega

end Feeding

/-! ## Widths -/

theorem readVarint_lt {input : Bytes} {value width : ℕ} (h : readVarint input = some (value, width)) :
    ∃ k < 4, width = 2 ^ k ∧ value < 64 * 256 ^ (2 ^ k - 1) := by
  cases input with
  | nil => cases h
  | cons first rest =>
    rw [readVarint_cons] at h
    split at h
    · cases h
    · rename_i hlen
      obtain ⟨rfl, rfl⟩ := Prod.mk.inj (Option.some.inj h)
      refine ⟨first.toNat / 64, by have := first.toNat_lt; omega, encodedWidth_eq first, ?_⟩
      have hlength : (rest.take (encodedWidth first - 1)).length = 2 ^ (first.toNat / 64) - 1 := by
        rw [List.length_take, ← encodedWidth_eq]
        omega
      have hbytes := foldl_shiftIn_lt (rest.take (encodedWidth first - 1))
      rw [foldl_shiftIn, and_sixBits]
      rw [hlength] at hbytes ⊢
      have hsix : first.toNat % 64 < 64 := Nat.mod_lt _ (by decide)
      nlinarith

theorem varintLen_le_width {input : Bytes} {value width : ℕ} (h : readVarint input = some (min value maxVarint, width)) :
    varintLen value ≤ width := by
  obtain ⟨k, hk, rfl, hlt⟩ := readVarint_lt h
  rw [← varintLen_min]
  generalize min value maxVarint = v at hlt
  interval_cases k <;> simp only [varintLen] <;> norm_num at hlt ⊢ <;> split_ifs <;> omega

/-! ## The helpers agree -/

/-- The writer, the length function, the reader and the accumulator agree, wherever a prefix is cut. -/
theorem varints_agree :
    (∀ (out rest : Bytes) (value : ℕ), ∃ written, writeVarint out value = out ++ written ∧
      readVarint (written ++ rest) = some (min value maxVarint, written.length) ∧ written.length = varintLen value ∧
      ∀ shorter width, readVarint shorter = some (min value maxVarint, width) → written.length ≤ width) ∧
    ∀ (p : PrefixBytes) (pieces : List Bytes), p.isEmpty = true →
      ∃ q, p.feedAll pieces = some ((readVarint pieces.flatten).map Prod.fst,
          ((readVarint pieces.flatten).map Prod.snd).getD pieces.flatten.length, q) ∧
        ((readVarint pieces.flatten).isSome = true → q.isEmpty = true) := by
  constructor
  · intro out rest value
    refine ⟨varintBytes value, rfl, ?_, length_varintBytes value, fun shorter width h => ?_⟩
    · rw [readVarint_varintBytes, length_varintBytes]
    · rw [length_varintBytes]
      exact varintLen_le_width h
  · intro p pieces hempty
    have hseen := isEmpty_iff.mp hempty
    have hnone : readVarint p.seen = none := by rw [hseen, readVarint_nil]
    cases hpieces : readVarint pieces.flatten with
    | none =>
      obtain ⟨q, hfeed⟩ := feedAll_short (p := p) pieces (by rwa [hseen])
      exact ⟨q, hfeed, by rintro ⟨⟩⟩
    | some decoded =>
      obtain ⟨q, hfeed, hq⟩ := feedAll_whole (p := p) pieces hnone (by rw [hseen]; exact hpieces)
      rw [hseen, List.length_nil, Nat.sub_zero] at hfeed
      exact ⟨q, hfeed, fun _ => hq⟩

end Ngnet.QmuxPrefixBytes
