import NvidiaGsp.Lib.Extents

/-!
# Lib.Unions

The bytes that a list of extents covers: where the extents do not overlap, their sizes add up to the
size of the union, and what another extent shares with them to the size of its part of it.
-/

namespace NvidiaGsp
namespace Extent

variable {x y : Extent} {xs ys : List Extent} {b : Nat}

/-- The bytes of an extent. -/
def points (x : Extent) : Finset Nat := Finset.Ico x.base x.stop

/-- The bytes of a list of extents. -/
def covered : List Extent → Finset Nat
  | [] => ∅
  | x :: rest => x.points ∪ covered rest

theorem mem_points : b ∈ x.points ↔ x.base ≤ b ∧ b < x.stop := Finset.mem_Ico

theorem mem_covered : b ∈ covered xs ↔ ∃ x ∈ xs, x.base ≤ b ∧ b < x.stop := by
  induction xs with
  | nil => simp [covered]
  | cons x rest ih => simp [covered, ih, mem_points]

theorem card_points : x.points.card = x.bytes := by
  rw [points, Nat.card_Ico, stop, Nat.add_sub_cancel_left]

theorem covered_append : covered (xs ++ ys) = covered xs ∪ covered ys := by
  induction xs with
  | nil => simp [covered]
  | cons x rest ih => simp [covered, ih, Finset.union_assoc]

/-- The bytes of extents that do not overlap add up. -/
theorem card_covered (h : Sorted xs) : (covered xs).card = total xs := by
  induction xs with
  | nil => rfl
  | cons x rest ih =>
    obtain ⟨hfirst, hrest⟩ := List.pairwise_cons.mp h
    have hdisj : Disjoint x.points (covered rest) := by
      rw [Finset.disjoint_left]
      intro b hb hrest
      obtain ⟨y, hy, hlow, -⟩ := mem_covered.1 hrest
      have := hfirst y hy
      have := (mem_points.1 hb).2
      omega
    rw [covered, Finset.card_union_of_disjoint hdisj, card_points, ih hrest, total_cons]

/-! ## What an extent shares with a union -/

theorem card_inter_points : (x.points ∩ y.points).card = x.overlap y := by
  unfold points overlap
  rw [Finset.Ico_inter_Ico, Nat.card_Ico]

/-- What an extent shares with extents that do not overlap adds up. -/
theorem card_inter_covered (h : Sorted ys) :
    (x.points ∩ covered ys).card = (ys.map x.overlap).sum := by
  induction ys with
  | nil => simp [covered]
  | cons y rest ih =>
    obtain ⟨hfirst, hrest⟩ := List.pairwise_cons.mp h
    have hdisj : Disjoint (x.points ∩ y.points) (x.points ∩ covered rest) := by
      rw [Finset.disjoint_left]
      intro b hb hb'
      obtain ⟨z, hz, hlow, -⟩ := mem_covered.1 (Finset.mem_inter.mp hb').2
      have := hfirst z hz
      have := (mem_points.1 (Finset.mem_inter.mp hb).2).2
      omega
    rw [covered, Finset.inter_union_distrib_left, Finset.card_union_of_disjoint hdisj,
      card_inter_points, ih hrest]
    rfl

end Extent
end NvidiaGsp
