import Mathlib.Data.Nat.Digits.Defs
import Mathlib.Tactic.Common

/-!
# Fixed-width little-endian numbers

`LittleEndian.encode n x` is the `n` bytes of the number `x`, the lowest one first, and
`LittleEndian.decode` reads bytes back.  A number that fits in `n` bytes survives the round trip
(`LittleEndian.decode_encode`).
-/

namespace LittleEndian

/-- The `n` lowest bytes of `x`, the lowest one first. -/
def encode : ℕ → ℕ → List UInt8
  | 0, _ => []
  | n + 1, x => UInt8.ofNat x :: encode n (x / 256)

/-- The number with the given bytes, the lowest one first. -/
def decode (bytes : List UInt8) : ℕ := Nat.ofDigits 256 (bytes.map UInt8.toNat)

@[simp] lemma length_encode (n x : ℕ) : (encode n x).length = n := by
  induction n generalizing x with
  | zero => rfl
  | succ n ih => rw [encode, List.length_cons, ih]

lemma decode_cons (byte : UInt8) (bytes : List UInt8) :
    decode (byte :: bytes) = byte.toNat + 256 * decode bytes := by
  rw [decode, List.map_cons, Nat.ofDigits_cons]
  rfl

/-- Reading back gives what fits in the width. -/
lemma decode_encode_mod (n x : ℕ) : decode (encode n x) = x % 256 ^ n := by
  induction n generalizing x with
  | zero => simp [encode, decode, Nat.mod_one]
  | succ n ih =>
    have hbyte : (UInt8.ofNat x).toNat = x % 256 := by simp
    rw [encode, decode_cons, ih, hbyte, Nat.pow_succ', Nat.mod_mul]

theorem decode_encode {n x : ℕ} (h : x < 256 ^ n) : decode (encode n x) = x := by
  rw [decode_encode_mod, Nat.mod_eq_of_lt h]

end LittleEndian
