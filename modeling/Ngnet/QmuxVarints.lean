import Mathlib.Tactic.IntervalCases
import Ngnet.BigEndianBytes

/-!
# QUIC variable-length integers of the QMux record layer

The helpers of `io/framing.rs` that read and write the length prefixes and frame fields
of a QMux byte stream. A value is a `u64` in the program; every value these functions
produce stays below `2 ^ 62`, so natural numbers carry it without wrapping.
-/

namespace Ngnet.QmuxVarints
open BigEndianBytes

abbrev Bytes := List UInt8

/-- `NGNET_QMUX_MAX_VARINT`. -/
def maxVarint : ℕ := 2 ^ 62 - 1

/-- `DEFAULT_MAX_RECORD_SIZE`: dwnx overwrites any configured maximum with this one. -/
def maxRecordSize : ℕ := 16382

/-- How many bytes an encoding that starts with `first` occupies. -/
def encodedWidth (first : UInt8) : ℕ := 1 <<< (first >>> 6).toNat

def readVarint (input : Bytes) : Option (ℕ × ℕ) :=
  match input.head? with
  | none => none
  | some first =>
    let len := encodedWidth first
    -- `input.get(..len)?`
    if input.length < len then none
    else some (((input.take len).drop 1).foldl shiftIn (first &&& 0x3f).toNat, len)

/-- The shortest encoding that holds `value`, a value above the maximum being clamped. -/
def varintBytes (value : ℕ) : Bytes :=
  let value := min value maxVarint
  if value ≤ 0x3f then [UInt8.ofNat value]
  else if value ≤ 0x3fff then toBeBytes 2 (value ||| 0x4000)
  else if value ≤ 0x3fffffff then toBeBytes 4 (value ||| 0x80000000)
  else toBeBytes 8 (value ||| 0xc000000000000000)

def writeVarint (out : Bytes) (value : ℕ) : Bytes := out ++ varintBytes value

def varintLen (value : ℕ) : ℕ :=
  if value ≤ 0x3f then 1
  else if value ≤ 0x3fff then 2
  else if value ≤ 0x3fffffff then 4
  else 8

theorem shiftRight_six (first : UInt8) : (first >>> 6).toNat = first.toNat / 64 := by
  rw [UInt8.toNat_shiftRight]
  simp [Nat.shiftRight_eq_div_pow]

theorem and_sixBits (first : UInt8) : (first &&& 0x3f).toNat = first.toNat % 64 := by
  rw [UInt8.toNat_and]
  exact Nat.and_two_pow_sub_one_eq_mod first.toNat 6

theorem encodedWidth_eq (first : UInt8) : encodedWidth first = 2 ^ (first.toNat / 64) := by
  rw [encodedWidth, shiftRight_six, Nat.shiftLeft_eq, Nat.one_mul]

theorem encodedWidth_cases (first : UInt8) :
    encodedWidth first = 1 ∨ encodedWidth first = 2 ∨ encodedWidth first = 4 ∨
      encodedWidth first = 8 := by
  have hlt : first.toNat / 64 < 4 := by have := first.toNat_lt; omega
  rw [encodedWidth_eq]
  generalize first.toNat / 64 = k at hlt
  interval_cases k <;> simp

theorem encodedWidth_pos (first : UInt8) : 0 < encodedWidth first := by
  rcases encodedWidth_cases first with h | h | h | h <;> omega

theorem encodedWidth_le (first : UInt8) : encodedWidth first ≤ 8 := by
  rcases encodedWidth_cases first with h | h | h | h <;> omega

@[simp] theorem readVarint_nil : readVarint [] = none := rfl

theorem readVarint_cons (first : UInt8) (rest : Bytes) :
    readVarint (first :: rest) =
      if rest.length + 1 < encodedWidth first then none
      else some ((rest.take (encodedWidth first - 1)).foldl shiftIn (first &&& 0x3f).toNat,
        encodedWidth first) := by
  obtain ⟨w, hw⟩ : ∃ w, encodedWidth first = w + 1 := ⟨_, (Nat.sub_add_cancel (encodedWidth_pos first)).symm⟩
  simp [readVarint, hw]

variable {input : Bytes} {value width : ℕ}

theorem readVarint_width
    (h : readVarint input = some (value, width)) :
    0 < width ∧ width ≤ 8 ∧ width ≤ input.length := by
  cases input with
  | nil => simp at h
  | cons first rest =>
    rw [readVarint_cons] at h
    split at h
    · simp at h
    · rename_i hlen
      simp only [Option.some.injEq, Prod.mk.injEq] at h
      rw [← h.2]
      exact ⟨encodedWidth_pos first, encodedWidth_le first, by simpa using Nat.le_of_not_lt hlen⟩

theorem readVarint_append (tail : Bytes)
    (h : readVarint input = some (value, width)) :
    readVarint (input ++ tail) = some (value, width) := by
  cases input with
  | nil => simp at h
  | cons first rest =>
    rw [readVarint_cons] at h
    split at h
    · simp at h
    · rename_i hlen
      have hshort : encodedWidth first - 1 ≤ rest.length := by omega
      rw [List.cons_append, readVarint_cons, if_neg (by simp; omega),
        List.take_append_of_le_length hshort, ← h]

theorem readVarint_none_of_append {tail : Bytes} (h : readVarint (input ++ tail) = none) :
    readVarint input = none := by
  cases hinput : readVarint input with
  | none => rfl
  | some p => rw [readVarint_append tail hinput] at h; exact absurd h (by simp)

theorem readVarint_take
    (h : readVarint input = some (value, width)) :
    readVarint (input.take width) = some (value, width) := by
  cases input with
  | nil => simp at h
  | cons first rest =>
    have hw := readVarint_width h
    rw [readVarint_cons] at h
    split at h
    · simp at h
    · simp only [Option.some.injEq, Prod.mk.injEq] at h
      obtain ⟨w, rfl⟩ : ∃ w, width = w + 1 := ⟨width - 1, by omega⟩
      have hlen := hw.2.2
      simp only [List.length_cons] at hlen
      rw [List.take_succ_cons, readVarint_cons, h.2, if_neg (by simp; omega)]
      simp only [Nat.add_sub_cancel, List.take_take, Nat.min_self]
      rw [← h.1, h.2, Nat.add_sub_cancel]

theorem readVarint_encoding {k v : ℕ} (hk : k < 4) (hv : v < 2 ^ (8 * 2 ^ k - 2)) (tail : Bytes) :
    readVarint (toBeBytes (2 ^ k) (v + 2 ^ (8 * 2 ^ k - 2) * k) ++ tail) = some (v, 2 ^ k) := by
  obtain ⟨n, hn⟩ : ∃ n, 2 ^ k = n + 1 := ⟨2 ^ k - 1, by have := Nat.one_le_two_pow (n := k); omega⟩
  have hpow : 2 ^ (8 * 2 ^ k - 2) = 64 * 256 ^ n := by
    rw [hn, show 8 * (n + 1) - 2 = 6 + 8 * n by omega, Nat.pow_add, Nat.pow_mul]
  rw [hpow] at hv ⊢
  set x := v + 64 * 256 ^ n * k with hx
  have hdiv : x / 256 ^ n / 64 = k := by
    rw [Nat.div_div_eq_div_mul, Nat.mul_comm (256 ^ n) 64, hx, Nat.add_mul_div_left _ _ (by positivity),
      Nat.div_eq_of_lt hv, Nat.zero_add]
  have hbyte : (UInt8.ofNat (x / 256 ^ n)).toNat = x / 256 ^ n := by
    rw [UInt8.toNat_ofNat', Nat.mod_eq_of_lt]
    omega
  have hmod : x / 256 ^ n % 64 * 256 ^ n + x % 256 ^ n = v := by
    have h := Nat.mod_mul (x := x) (a := 256 ^ n) (b := 64)
    rw [Nat.mul_comm (256 ^ n) 64, hx, Nat.add_mul_mod_self_left, Nat.mod_eq_of_lt hv, ← hx] at h
    rw [h]
    ring
  rw [hn, toBeBytes, List.cons_append, readVarint_cons, encodedWidth_eq, hbyte, hdiv, hn,
    if_neg (by simp), Nat.add_sub_cancel, List.take_append_of_le_length (by simp),
    List.take_of_length_le (by simp), foldl_toBeBytes, and_sixBits, hbyte, hmod]

theorem varintBytes_eq (value : ℕ) :
    ∃ k, k < 4 ∧ varintLen (min value maxVarint) = 2 ^ k ∧
      min value maxVarint < 2 ^ (8 * 2 ^ k - 2) ∧
      varintBytes value = toBeBytes (2 ^ k) (min value maxVarint + 2 ^ (8 * 2 ^ k - 2) * k) := by
  have hmax : min value maxVarint < 2 ^ 62 := by
    have := Nat.min_le_right value maxVarint
    simp only [maxVarint] at this ⊢
    omega
  unfold varintBytes varintLen
  generalize min value maxVarint = v at hmax
  dsimp only
  by_cases h₁ : v ≤ 0x3f
  · refine ⟨0, by omega, by simp [h₁], by omega, ?_⟩
    simp [h₁, toBeBytes]
  by_cases h₂ : v ≤ 0x3fff
  · refine ⟨1, by omega, by simp [h₁, h₂], by omega, ?_⟩
    rw [if_neg h₁, if_pos h₂]
    exact congrArg _ (or_two_pow_mul (i := 14) 1 (by omega))
  by_cases h₃ : v ≤ 0x3fffffff
  · refine ⟨2, by omega, by simp [h₁, h₂, h₃], by omega, ?_⟩
    rw [if_neg h₁, if_neg h₂, if_pos h₃]
    exact congrArg _ (or_two_pow_mul (i := 30) 2 (by omega))
  · refine ⟨3, by omega, by simp [h₁, h₂, h₃], by omega, ?_⟩
    rw [if_neg h₁, if_neg h₂, if_neg h₃]
    exact congrArg _ (or_two_pow_mul (i := 62) 3 (by omega))

theorem varintLen_min (value : ℕ) : varintLen (min value maxVarint) = varintLen value := by
  rcases Nat.le_total value maxVarint with h | h
  · rw [Nat.min_eq_left h]
  · have hbig : 0x3fffffff < value := lt_of_lt_of_le (by decide) h
    rw [Nat.min_eq_right h]
    simp [varintLen, maxVarint, show ¬value ≤ 0x3fffffff by omega,
      show ¬value ≤ 0x3fff by omega, show ¬value ≤ 0x3f by omega]

@[simp] theorem length_varintBytes (value : ℕ) : (varintBytes value).length = varintLen value := by
  obtain ⟨k, -, hlen, -, heq⟩ := varintBytes_eq value
  rw [heq, length_toBeBytes, ← hlen, varintLen_min]

theorem readVarint_varintBytes (value : ℕ) (tail : Bytes) :
    readVarint (varintBytes value ++ tail) = some (min value maxVarint, varintLen value) := by
  obtain ⟨k, hk, hlen, hv, heq⟩ := varintBytes_eq value
  rw [heq, readVarint_encoding hk hv, ← hlen, varintLen_min]

theorem varintLen_pos (value : ℕ) : 0 < varintLen value := by
  simp only [varintLen]
  split_ifs <;> omega

theorem varintLen_le (value : ℕ) : varintLen value ≤ 8 := by
  simp only [varintLen]
  split_ifs <;> omega

end Ngnet.QmuxVarints
