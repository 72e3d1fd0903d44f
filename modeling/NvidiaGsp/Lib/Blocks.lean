import Mathlib

/-!
# Lib.Blocks

A list of blocks written out as one list. `start f xs i` is where block `i` begins; an element is
found by its block and its place in it (`locate`), and nothing moves when a block is appended.
-/

namespace NvidiaGsp
namespace Blocks

variable {α β : Type} {f : α → List β}

/-- Where block `i` begins in `xs.flatMap f`. -/
def start (f : α → List β) (xs : List α) (i : Nat) : Nat := ((xs.take i).flatMap f).length

@[simp] theorem start_zero (xs : List α) : start f xs 0 = 0 := rfl

@[simp] theorem start_cons (x : α) (xs : List α) (i : Nat) :
    start f (x :: xs) (i + 1) = (f x).length + start f xs i := by
  simp [start]

theorem start_length (xs : List α) : start f xs xs.length = (xs.flatMap f).length := by
  rw [start, List.take_length]

theorem start_succ {xs : List α} {i : Nat} {x : α} (h : xs[i]? = some x) :
    start f xs (i + 1) = start f xs i + (f x).length := by
  rw [start, start, List.take_add_one, h]
  simp

theorem start_mono (xs : List α) {i j : Nat} (h : i ≤ j) : start f xs i ≤ start f xs j := by
  rw [start, start, ← Nat.add_sub_cancel' h, List.take_add, List.flatMap_append,
    List.length_append]
  exact Nat.le_add_right _ _

theorem start_le (xs : List α) (i : Nat) : start f xs i ≤ (xs.flatMap f).length := by
  rcases Nat.le_total i xs.length with h | h
  · exact start_length (f := f) xs ▸ start_mono xs h
  · exact Nat.le_of_eq (by rw [start, List.take_of_length_le h])

theorem start_append {xs ys : List α} {i : Nat} (h : i ≤ xs.length) :
    start f (xs ++ ys) i = start f xs i := by
  rw [start, start, List.take_append_of_le_length h]

/-- Every element lies in a block. -/
theorem locate {xs : List α} {n : Nat} {b : β} (h : (xs.flatMap f)[n]? = some b) :
    ∃ i k x, xs[i]? = some x ∧ n = start f xs i + k ∧ (f x)[k]? = some b := by
  induction xs generalizing n with
  | nil => simp at h
  | cons y ys ih =>
    rw [List.flatMap_cons] at h
    by_cases hn : n < (f y).length
    · rw [List.getElem?_append_left hn] at h
      exact ⟨0, n, y, rfl, by simp, h⟩
    · rw [List.getElem?_append_right (by omega)] at h
      obtain ⟨i, k, x, hx, heq, hb⟩ := ih h
      refine ⟨i + 1, k, x, by simpa using hx, ?_, hb⟩
      rw [start_cons]
      omega

end Blocks
end NvidiaGsp
