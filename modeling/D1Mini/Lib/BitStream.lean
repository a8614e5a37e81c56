import Mathlib.Algebra.Group.Nat.Defs
import Mathlib.Data.Nat.Bitwise

/-! Words and their bits: words that arrive bit by bit, the highest bit first, and the test of the
highest bit of a word. -/

namespace BitStream

def value (bs : List Bool) : Nat := bs.foldl (fun n b => 2 * n + b.toNat) 0

/-- The `w` lowest bits of a number. -/
def bits : Nat → Nat → List Bool
  | 0, _ => []
  | w + 1, n => bits w (n / 2) ++ [decide (n % 2 = 1)]

variable {w n acc : Nat} {as bs : List Bool} {b : Bool}

/-- What is there already is moved up by the bits that follow. -/
theorem foldl_value :
    bs.foldl (fun n b => 2 * n + b.toNat) acc = acc * 2 ^ bs.length + value bs := by
  induction bs generalizing acc with
  | nil => simp [value]
  | cons b bs ih =>
    have hvalue : value (b :: bs) = b.toNat * 2 ^ bs.length + value bs := by
      rw [value, List.foldl_cons, ih, Nat.mul_zero, Nat.zero_add]
    rw [List.foldl_cons, ih, hvalue, List.length_cons, Nat.pow_succ, Nat.add_mul,
      Nat.mul_comm 2 acc, Nat.mul_assoc, Nat.mul_comm 2, Nat.add_assoc]

theorem value_append : value (as ++ bs) = value as * 2 ^ bs.length + value bs := by
  rw [value, List.foldl_append]
  exact foldl_value

theorem length_bits : (bits w n).length = w := by
  induction w generalizing n with
  | zero => rfl
  | succ w ih => rw [bits, List.length_append, ih, List.length_singleton]

theorem value_bits : value (bits w n) = n % 2 ^ w := by
  induction w generalizing n with
  | zero => rw [Nat.pow_zero, Nat.mod_one, bits, value, List.foldl_nil]
  | succ w ih =>
    have hbit : value [decide (n % 2 = 1)] = n % 2 := by
      rcases Nat.mod_two_eq_zero_or_one n with h | h <;> rw [h] <;> rfl
    rw [bits, value_append, ih, hbit, List.length_singleton, Nat.pow_one, Nat.pow_succ',
      Nat.mod_mul, Nat.mul_comm, Nat.add_comm]

theorem value_bits_of_lt (h : n < 2 ^ w) : value (bits w n) = n := by
  rw [value_bits, Nat.mod_eq_of_lt h]

theorem and_two_pow_ne_zero (h : n < 2 ^ (w + 1)) : n &&& 2 ^ w ≠ 0 ↔ 2 ^ w ≤ n := by
  rw [Nat.and_two_pow]
  rcases Nat.lt_or_ge n (2 ^ w) with hlt | hle
  · rw [Nat.testBit_lt_two_pow hlt, Bool.toNat_false, Nat.zero_mul]
    exact iff_of_false (fun hne => hne rfl) (Nat.not_le_of_lt hlt)
  · rw [Nat.testBit_of_two_pow_le_and_two_pow_add_one_gt hle h, Bool.toNat_true, Nat.one_mul]
    exact iff_of_true (Nat.ne_of_gt (Nat.pow_pos (by decide))) hle

end BitStream
