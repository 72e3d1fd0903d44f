import Mathlib

/-!
# Lib.Rounding

Rounding to multiples: `down` is the largest multiple below a value, and `up_facts` says what rounding
up gives.
-/

namespace NvidiaGsp
namespace Rounding

variable {v w a : Nat}

def down (value alignment : Nat) : Nat := value / alignment * alignment

theorem down_le (v a : Nat) : down v a ≤ v := Nat.div_mul_le_self v a

theorem down_mod (v a : Nat) : down v a % a = 0 := Nat.mul_mod_left _ _

theorem lt_down (ha : 0 < a) : v < down v a + a := by
  have := Nat.lt_div_mul_add ha (a := v)
  unfold down
  omega

/-- A multiple below a value is below its whole part. -/
theorem le_down (hw : w % a = 0) (h : w ≤ v) : w ≤ down v a := by
  unfold down
  rw [← Nat.div_mul_cancel (Nat.dvd_of_mod_eq_zero hw)]
  exact Nat.mul_le_mul_right _ (Nat.div_le_div_right h)

/-- Multiples less than one step apart are equal. -/
theorem eq_of_mod (hv : v % a = 0) (hw : w % a = 0) (h : v ≤ w) (hlt : w < v + a) : v = w := by
  have hz : (w - v) % a = 0 := Nat.sub_mod_eq_zero_of_mod_eq (hw.trans hv.symm)
  rw [Nat.mod_eq_of_lt (by omega)] at hz
  omega

/-- Rounding up. -/
theorem up_facts (ha : 0 < a) : v ≤ down (v + (a - 1)) a ∧ down (v + (a - 1)) a ≤ v + (a - 1) ∧
    down (v + (a - 1)) a % a = 0 := by
  have := @lt_down (v + (a - 1)) a ha
  exact ⟨by omega, down_le _ _, down_mod _ _⟩

theorem min_mod {b k : Nat} (ha : a % k = 0) (hb : b % k = 0) : min a b % k = 0 := by
  rw [Nat.min_def]
  split <;> assumption

theorem max_mod {b k : Nat} (ha : a % k = 0) (hb : b % k = 0) : max a b % k = 0 := by
  rw [Nat.max_def]
  split <;> assumption

end Rounding
end NvidiaGsp
