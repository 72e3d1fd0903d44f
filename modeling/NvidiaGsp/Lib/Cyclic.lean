import Mathlib

/-!
# Lib.Cyclic

Cursors of a ring of `n` slots. The executable operations wrap at most once (`distance`, `advance`);
seen from a running total they are subtraction and addition: `distance_mod`, `advance_mod`.
-/

namespace NvidiaGsp
namespace Cyclic

variable {n a b k : Nat}

/-- The steps from cursor `a` forward to cursor `b`. -/
def distance (n a b : Nat) : Nat := if b ≥ a then b - a else n - a + b

/-- The cursor `k` slots after `a`. -/
def advance (n a k : Nat) : Nat := if a + k < n then a + k else a + k - n

theorem distance_lt (ha : a < n) (hb : b < n) : distance n a b < n := by
  unfold distance
  split <;> omega

@[simp] theorem distance_self : distance n a a = 0 := by simp [distance]

theorem advance_lt (ha : a < n) (hk : k ≤ n) : advance n a k < n := by
  unfold advance
  split <;> omega

theorem distance_advance (ha : a < n) (hk : k < n) : distance n a (advance n a k) = k := by
  unfold distance advance
  split <;> split <;> omega

/-- Going from `a` to `b` and on by `k` without a full turn. -/
theorem distance_advance_from (ha : a < n) (hb : b < n) (hk : distance n a b + k < n) :
    distance n a (advance n b k) = distance n a b + k := by
  unfold distance advance at *
  split at hk <;> split <;> split <;> omega

/-- Two legs of less than a full turn add up. -/
theorem distance_add {c : Nat} (ha : a < n) (hb : b < n)
    (h : distance n a b + distance n b c < n) : distance n a c = distance n a b + distance n b c := by
  unfold distance at *
  split at h <;> split at h <;> split <;> omega

theorem advance_mod {p : Nat} (hn : 0 < n) (hk : k ≤ n) : advance n (p % n) k = (p + k) % n := by
  have hp := Nat.mod_lt p hn
  unfold advance
  rw [← Nat.mod_add_mod]
  split
  · rename_i h
    rw [Nat.mod_eq_of_lt h]
  · have h : n ≤ p % n + k := by omega
    have hlt : p % n + k - n < n := by omega
    rw [Nat.mod_eq_sub_mod h, Nat.mod_eq_of_lt hlt]

theorem distance_mod {p q : Nat} (hn : 0 < n) (hpq : p ≤ q) (hlt : q < p + n) :
    distance n (p % n) (q % n) = q - p := by
  have hq : q % n = advance n (p % n) (q - p) := by
    rw [advance_mod hn (by omega)]
    congr 1
    omega
  rw [hq, distance_advance (Nat.mod_lt p hn) (by omega)]

end Cyclic
end NvidiaGsp
