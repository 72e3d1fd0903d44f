import Mathlib

/-!
# Lib.Moves

A copy within one array, element by element: forwards it may move a part down over itself, backwards
up.
-/

namespace NvidiaGsp
namespace Moves

variable {α : Type} {a : Nat → α} {dst src n i : Nat}

/-- `n` elements, the first one first. -/
def copyForwards (a : Nat → α) (dst src : Nat) : Nat → Nat → α
  | 0 => a
  | n + 1 =>
    let b := copyForwards a dst src n
    Function.update b (dst + n) (b (src + n))

/-- `n` elements, the last one first. -/
def copyBackwards (a : Nat → α) (dst src : Nat) : Nat → Nat → α
  | 0 => a
  | n + 1 => copyBackwards (Function.update a (dst + n) (a (src + n))) dst src n

/-- A part that moves down arrives whole. -/
theorem copyForwards_apply (h : dst ≤ src) : copyForwards a dst src n i =
    if dst ≤ i ∧ i < dst + n then a (src + (i - dst)) else a i := by
  induction n generalizing i with
  | zero => rw [if_neg (by omega)]; rfl
  | succ n ih =>
    rw [copyForwards]
    by_cases hi : i = dst + n
    · subst hi
      rw [Function.update_self, ih, if_neg (by omega), if_pos (by omega)]
      congr 1
      omega
    · rw [Function.update_of_ne hi, ih]
      by_cases hin : dst ≤ i ∧ i < dst + n
      · rw [if_pos hin, if_pos (by omega)]
      · rw [if_neg hin, if_neg (by omega)]

/-- A part that moves up arrives whole. -/
theorem copyBackwards_apply (h : src ≤ dst) : copyBackwards a dst src n i =
    if dst ≤ i ∧ i < dst + n then a (src + (i - dst)) else a i := by
  induction n generalizing a with
  | zero => rw [if_neg (by omega)]; rfl
  | succ n ih =>
    rw [copyBackwards, ih]
    by_cases hi : i = dst + n
    · subst hi
      rw [if_neg (by omega), if_pos (by omega), Function.update_self]
      congr 1
      omega
    · rw [Function.update_of_ne hi]
      by_cases hin : dst ≤ i ∧ i < dst + n
      · rw [if_pos hin, if_pos (by omega), Function.update_of_ne (by omega)]
      · rw [if_neg hin, if_neg (by omega)]

end Moves
end NvidiaGsp
