import Mathlib

/-!
# Lib.Ladder

Work that passes through ranks and leaves a mark at each, a serial number that only grows.
`Climbed mark rank bound` says that the marks below `rank` ascend and stay within `bound`, the last
serial seen. A step that stays on its rank, or falls back, keeps the marks; a step that climbs sets
the mark of the rank it leaves to a fresh serial.
-/

namespace NvidiaGsp
namespace Ladder

def Climbed (mark : Nat → Nat) (rank bound : Nat) : Prop :=
  ∀ i < rank, (∀ j < i, mark j < mark i) ∧ 0 < mark i ∧ mark i ≤ bound

variable {mark mark' : Nat → Nat} {rank rank' bound bound' : Nat}

theorem Climbed.ground : Climbed mark 0 bound := by
  intro i hi
  omega

/-- Nothing is lost by falling back or by seeing later serials. -/
theorem Climbed.keep (h : Climbed mark rank bound) (hr : rank' ≤ rank) (hb : bound ≤ bound')
    (hm : ∀ i < rank', mark' i = mark i) : Climbed mark' rank' bound' := by
  intro i hi
  obtain ⟨hlt, hpos, hle⟩ := h i (by omega)
  refine ⟨fun j hj => ?_, ?_, ?_⟩
  · rw [hm i hi, hm j (by omega)]
    exact hlt j hj
  · rw [hm i hi]
    exact hpos
  · rw [hm i hi]
    omega

/-- The mark of the rank that is left is a fresh serial. -/
theorem Climbed.climb (h : Climbed mark rank bound) (hs : bound < bound')
    (hm : ∀ i < rank, mark' i = mark i) (hnew : mark' rank = bound') :
    Climbed mark' (rank + 1) bound' := by
  intro i hi
  rcases Nat.lt_succ_iff_lt_or_eq.mp hi with hlow | rfl
  · obtain ⟨hlt, hpos, hle⟩ := h i hlow
    refine ⟨fun j hj => ?_, ?_, ?_⟩
    · rw [hm i hlow, hm j (by omega)]
      exact hlt j hj
    · rw [hm i hlow]
      exact hpos
    · rw [hm i hlow]
      omega
  · refine ⟨fun j hj => ?_, by omega, by omega⟩
    have := (h j hj).2.2
    rw [hm j hj]
    omega

theorem Climbed.lt (h : Climbed mark rank bound) {i j : Nat} (hij : i < j) (hj : j < rank) :
    mark i < mark j := (h j hj).1 i hij

theorem Climbed.pos (h : Climbed mark rank bound) {i : Nat} (hi : i < rank) : 0 < mark i :=
  (h i hi).2.1

theorem Climbed.le (h : Climbed mark rank bound) {i : Nat} (hi : i < rank) : mark i ≤ bound :=
  (h i hi).2.2

end Ladder
end NvidiaGsp
