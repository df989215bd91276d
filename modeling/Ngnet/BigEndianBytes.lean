import Mathlib.Data.Nat.Bitwise
import Mathlib.Data.List.Basic
import Mathlib.Tactic.Ring
import Mathlib.Tactic.Linarith

/-!
# Big-endian byte strings

Fixed-width big-endian encodings of natural numbers and the accumulator that reads
them back. A shift by eight followed by a bitwise or is the usual way programs write
that accumulator; it is identified here with its arithmetic value once, so that every
wire format built on it is reasoned about in ordinary arithmetic.
-/

namespace Ngnet.BigEndianBytes

/-- The `n` low-order bytes of `v`, most significant first. -/
def toBeBytes : ℕ → ℕ → List UInt8
  | 0, _ => []
  | n + 1, v => UInt8.ofNat (v / 256 ^ n) :: toBeBytes n v

/-- One step of the shift-and-or accumulator. -/
def shiftIn (value : ℕ) (byte : UInt8) : ℕ := value <<< 8 ||| byte.toNat

@[simp] theorem length_toBeBytes (n v : ℕ) : (toBeBytes n v).length = n := by
  induction n with
  | zero => rfl
  | succ n ih => simp [toBeBytes, ih]

theorem shiftIn_eq (value : ℕ) (byte : UInt8) : shiftIn value byte = value * 256 + byte.toNat := by
  have hb : byte.toNat < 2 ^ 8 := byte.toNat_lt
  rw [shiftIn, ← Nat.shiftLeft_add_eq_or_of_lt hb, Nat.shiftLeft_eq]

theorem or_two_pow_mul {v i : ℕ} (k : ℕ) (hv : v < 2 ^ i) : v ||| 2 ^ i * k = v + 2 ^ i * k := by
  rw [Nat.or_comm, ← Nat.two_pow_add_eq_or_of_lt hv, Nat.add_comm]

theorem foldl_shiftIn (bytes : List UInt8) (value : ℕ) :
    bytes.foldl shiftIn value = value * 256 ^ bytes.length + bytes.foldl shiftIn 0 := by
  induction bytes generalizing value with
  | nil => simp
  | cons b bs ih =>
    simp only [List.foldl_cons, List.length_cons]
    rw [ih (shiftIn value b), ih (shiftIn 0 b), shiftIn_eq, shiftIn_eq]
    ring

theorem foldl_shiftIn_lt (bytes : List UInt8) : bytes.foldl shiftIn 0 < 256 ^ bytes.length := by
  induction bytes with
  | nil => simp
  | cons b bs ih =>
    have hb : b.toNat < 256 := b.toNat_lt
    rw [List.foldl_cons, foldl_shiftIn, shiftIn_eq, List.length_cons, Nat.pow_succ]
    nlinarith

theorem foldl_toBeBytes (n v value : ℕ) :
    (toBeBytes n v).foldl shiftIn value = value * 256 ^ n + v % 256 ^ n := by
  induction n generalizing value with
  | zero => simp [toBeBytes, Nat.mod_one]
  | succ n ih =>
    have hsplit : v % 256 ^ (n + 1) = v % 256 ^ n + 256 ^ n * (v / 256 ^ n % 256) := by
      rw [Nat.pow_succ, Nat.mod_mul]
    rw [toBeBytes, List.foldl_cons, ih, shiftIn_eq, UInt8.toNat_ofNat', hsplit]
    ring

end Ngnet.BigEndianBytes
