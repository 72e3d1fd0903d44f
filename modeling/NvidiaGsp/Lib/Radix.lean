import Mathlib

/-!
# Lib.Radix

Bit fields of addresses. A radix tree splits an address into fields; a node is known by the address
shifted down to its field, and its child by the next field below. `shift_split` is the step between
them, and the rest reads masks, alignments and tagged words as arithmetic.
-/

namespace NvidiaGsp
namespace Radix

/-- The mask of a field of `k` bits is its remainder. -/
theorem and_mask (a k : Nat) : a &&& (2 ^ k - 1) = a % 2 ^ k := Nat.and_two_pow_sub_one_eq_mod a k

/-- Shifting by less keeps one more field. -/
theorem shift_split (a s k : Nat) :
    a >>> s = a >>> (s + k) * 2 ^ k + (a >>> s) % 2 ^ k := by
  rw [Nat.shiftRight_add, Nat.shiftRight_eq_div_pow (a >>> s) k]
  exact (Nat.div_add_mod' _ _).symm

/-- A value tagged in the bits below a shift. -/
theorem shiftLeft_or {q t k : Nat} (h : t < 2 ^ k) : q <<< k ||| t = q * 2 ^ k + t := by
  rw [← Nat.shiftLeft_add_eq_or_of_lt h, Nat.shiftLeft_eq]

theorem shiftLeft_or_inj {q t q' t' k : Nat} (h : t < 2 ^ k) (h' : t' < 2 ^ k)
    (heq : q <<< k ||| t = q' <<< k ||| t') : q = q' ∧ t = t' := by
  rw [shiftLeft_or h, shiftLeft_or h'] at heq
  have hq := congrArg (· / 2 ^ k) heq
  have ht := congrArg (· % 2 ^ k) heq
  simp only [Nat.mul_comm _ (2 ^ k), Nat.mul_add_div (Nat.two_pow_pos k), Nat.mul_add_mod,
    Nat.div_eq_of_lt h, Nat.div_eq_of_lt h', Nat.mod_eq_of_lt h, Nat.mod_eq_of_lt h'] at hq ht
  exact ⟨hq, ht⟩

/-- Several values are aligned when their union is. -/
theorem or_and_mask_eq_zero {a b k : Nat} :
    (a ||| b) &&& (2 ^ k - 1) = 0 ↔ a % 2 ^ k = 0 ∧ b % 2 ^ k = 0 := by
  rw [Nat.and_or_distrib_right, and_mask, and_mask, Nat.or_eq_zero_iff]

theorem or_ne_zero_left {a b : Nat} (h : a ≠ 0) : a ||| b ≠ 0 := by
  rw [Ne, Nat.or_eq_zero_iff]
  exact fun hz => h hz.1

theorem or_ne_zero_right {a b : Nat} (h : b ≠ 0) : a ||| b ≠ 0 := by
  rw [Ne, Nat.or_eq_zero_iff]
  exact fun hz => h hz.2

end Radix
end NvidiaGsp
