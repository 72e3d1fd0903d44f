import Mathlib

/-!
# Lib.Counts

Counting the entries of a table that satisfy a test, under a write of one entry. The tables of the
source keep such counts in a field of their own (used words, free slots); these lemmas relate the
field to the table.
-/

namespace NvidiaGsp
namespace Counts

variable {α : Type}

/-- Tests that agree on the list count alike. -/
theorem countP_congr {l : List α} {p q : α → Bool} (h : ∀ x ∈ l, p x = q x) :
    l.countP p = l.countP q := by
  induction l with
  | nil => rfl
  | cons x rest ih =>
    have hrest := ih fun y hy => h y (by simp [hy])
    simp only [List.countP_cons, hrest, h x (by simp)]

/-- Turning the test off at one entry of the list takes one off the count. -/
theorem countP_turn_off {l : List α} {p q : α → Bool} {i : α} (hnd : l.Nodup) (hi : i ∈ l)
    (hp : p i = true) (hq : q i = false) (hother : ∀ j ∈ l, j ≠ i → q j = p j) :
    l.countP p = l.countP q + 1 := by
  induction l with
  | nil => simp at hi
  | cons x rest ih =>
    rw [List.nodup_cons] at hnd
    by_cases hx : x = i
    · subst hx
      have hrest : rest.countP p = rest.countP q :=
        countP_congr fun y hy => (hother y (by simp [hy]) fun h => hnd.1 (h ▸ hy)).symm
      simp [hp, hq, hrest]
    · have hmem : i ∈ rest := (List.mem_cons.mp hi).resolve_left (Ne.symm hx)
      have hrest := ih hnd.2 hmem fun j hj => hother j (by simp [hj])
      simp only [List.countP_cons, hrest, hother x (by simp) hx]
      omega

/-- Two tests that never hold together count separately. -/
theorem countP_disjoint {l : List α} {p q s : α → Bool}
    (h : ∀ x ∈ l, s x = (p x || q x) ∧ (p x && q x) = false) :
    l.countP s = l.countP p + l.countP q := by
  induction l with
  | nil => rfl
  | cons x rest ih =>
    have hrest := ih fun y hy => h y (by simp [hy])
    obtain ⟨hs, hd⟩ := h x (by simp)
    simp only [List.countP_cons, hrest, hs]
    cases hp : p x <;> cases hq : q x <;> simp_all <;> omega

/-- A list whose stretches without `a` are short is short, up to the number of `a`. -/
theorem length_le_of_gaps [DecidableEq α] {a : α} {k : Nat} {l : List α}
    (h : ∀ pre gap post, l = pre ++ gap ++ post → a ∉ gap → gap.length ≤ k) :
    l.length ≤ (k + 1) * l.count a + k := by
  induction hn : l.count a generalizing l with
  | zero =>
    have hnot : a ∉ l := List.count_eq_zero.mp hn
    have := h [] l [] (by simp) hnot
    omega
  | succ n ih =>
    have hmem : a ∈ l := List.count_pos_iff.mp (by omega)
    obtain ⟨pre, post, rfl, hpre⟩ := List.eq_append_cons_of_mem hmem
    have hfront := h [] pre (a :: post) (by simp) hpre
    rw [List.count_append, List.count_eq_zero.mpr hpre, List.count_cons_self] at hn
    have hback := ih (l := post) (fun pre' gap post' heq hnot =>
      h (pre ++ a :: pre') gap post' (by simp [heq]) hnot) (by omega)
    rw [List.length_append, List.length_cons, Nat.mul_succ]
    omega

/-- A positive count has a witness. -/
theorem exists_of_countP_pos {l : List α} {p : α → Bool} (h : 0 < l.countP p) :
    ∃ x ∈ l, p x = true := List.countP_pos_iff.mp h

end Counts
end NvidiaGsp
