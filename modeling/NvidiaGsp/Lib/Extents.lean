import Mathlib

/-!
# Lib.Extents

Extents of an address space, and the search for the first gap. `settle` walks over occupied extents
sorted by base and moves a candidate behind each one it meets, rounding up to a good address;
`settle_spec` says it ends at the least good address with room, if there is one.
-/

namespace NvidiaGsp

structure Extent where
  base : Nat
  bytes : Nat
  deriving DecidableEq, Repr

namespace Extent

def stop (e : Extent) : Nat := e.base + e.bytes

def Apart (a b : Extent) : Prop := a.stop ≤ b.base ∨ b.stop ≤ a.base

instance (a b : Extent) : Decidable (Apart a b) := inferInstanceAs (Decidable (_ ∨ _))

theorem Apart.symm {a b : Extent} (h : Apart a b) : Apart b a := Or.symm h

/-- The bytes two extents share. -/
def overlap (a b : Extent) : Nat := min a.stop b.stop - max a.base b.base

theorem overlap_eq_zero {a b : Extent} (ha : 0 < a.bytes) (hb : 0 < b.bytes) :
    a.overlap b = 0 ↔ Apart a b := by
  unfold overlap Apart stop
  omega

/-- Each extent ends before the next begins. -/
def Sorted (xs : List Extent) : Prop := xs.Pairwise fun a b => a.stop ≤ b.base

def total (xs : List Extent) : Nat := (xs.map bytes).sum

theorem bytes_le_total {x : Extent} {xs : List Extent} (h : x ∈ xs) : x.bytes ≤ total xs := by
  unfold total
  induction xs with
  | nil => cases h
  | cons y ys ih =>
    rw [List.map_cons, List.sum_cons]
    rcases List.mem_cons.mp h with rfl | h
    · omega
    · have := ih h
      omega

theorem length_le_total {xs : List Extent} (h : ∀ x ∈ xs, 0 < x.bytes) : xs.length ≤ total xs := by
  induction xs with
  | nil => exact Nat.le_refl _
  | cons x rest ih =>
    have := h x List.mem_cons_self
    have := ih fun y hy => h y (List.mem_cons_of_mem _ hy)
    have hsum : total (x :: rest) = x.bytes + total rest := rfl
    rw [List.length_cons]
    omega

theorem total_append (xs ys : List Extent) : total (xs ++ ys) = total xs + total ys := by
  simp [total]

theorem total_cons (x : Extent) (xs : List Extent) : total (x :: xs) = x.bytes + total xs := rfl

/-- Sorted extents between two addresses hold no more than the distance. -/
theorem Sorted.total_le {low high : Nat} {xs : List Extent} (hs : Sorted xs) (hle : low ≤ high)
    (hlow : ∀ x ∈ xs, low ≤ x.base) (hhigh : ∀ x ∈ xs, x.stop ≤ high) :
    low + total xs ≤ high := by
  induction xs generalizing low with
  | nil => exact hle
  | cons x rest ih =>
    obtain ⟨hfirst, hrest⟩ := List.pairwise_cons.mp hs
    have := ih hrest (hhigh x List.mem_cons_self) hfirst
      fun y hy => hhigh y (List.mem_cons_of_mem _ hy)
    have := hlow x List.mem_cons_self
    have hsum : total (x :: rest) = x.bytes + total rest := rfl
    have hstop : x.stop = x.base + x.bytes := rfl
    omega

/-! ## The first gap -/

/-- `up` finds the least good address from a value on. -/
def Rounds (good : Nat → Prop) (up : Nat → Option Nat) : Prop :=
  ∀ v, match up v with
    | some u => good u ∧ v ≤ u ∧ ∀ z, good z → v ≤ z → u ≤ z
    | none => ∀ z, good z → ¬ v ≤ z

/-- A good address from `low` on, with room below `limit` and apart from `xs`. -/
structure Room (good : Nat → Prop) (bytes low limit : Nat) (xs : List Extent) (z : Nat) : Prop where
  good : good z
  low : low ≤ z
  limit : z + bytes ≤ limit
  apart : ∀ x ∈ xs, Apart ⟨z, bytes⟩ x

/-- The candidate behind the occupied extents, or none once it has no room. -/
def settle (up : Nat → Option Nat) (bytes limit : Nat) : Nat → List Extent → Option Nat
  | base, [] => if base < limit ∧ bytes ≤ limit - base then some base else none
  | base, x :: rest =>
    if base < limit ∧ bytes ≤ limit - base then
      if x.base ≥ base + bytes then some base
      else if x.stop > base then
        match up x.stop with
        | some next => settle up bytes limit next rest
        | none => none
      else settle up bytes limit base rest
    else none

/-- What the search ends with. -/
def Least (P : Nat → Prop) : Option Nat → Prop
  | some b => P b ∧ ∀ z, P z → b ≤ z
  | none => ∀ z, ¬ P z

theorem Least.congr {P Q : Nat → Prop} {o : Option Nat} (h : Least P o) (hpq : ∀ z, P z ↔ Q z) :
    Least Q o := by
  cases o with
  | some b => exact ⟨(hpq b).mp h.1, fun z hz => h.2 z ((hpq z).mpr hz)⟩
  | none => exact fun z hz => h z ((hpq z).mpr hz)

theorem settle_spec {good : Nat → Prop} {up : Nat → Option Nat} (hup : Rounds good up)
    {bytes limit base : Nat} {xs : List Extent} (hb : 0 < bytes) (hbase : good base)
    (hs : xs.Pairwise fun a b => a.base ≤ b.base) :
    Least (Room good bytes base limit xs) (settle up bytes limit base xs) := by
  induction xs generalizing base with
  | nil =>
    unfold settle
    split
    · exact ⟨⟨hbase, Nat.le_refl _, by omega, by simp⟩, fun z hz => hz.low⟩
    · intro z hz
      have := hz.low
      have := hz.limit
      omega
  | cons x rest ih =>
    rw [List.pairwise_cons] at hs
    unfold settle
    split
    rotate_left
    · intro z hz
      have := hz.low
      have := hz.limit
      omega
    split
    · -- Everything left begins behind the candidate.
      rename_i hroom hbehind
      refine ⟨⟨hbase, Nat.le_refl _, by omega, fun y hy => .inl ?_⟩, fun z hz => hz.low⟩
      show base + bytes ≤ y.base
      rcases List.mem_cons.mp hy with rfl | hy
      · exact hbehind
      · have := hs.1 y hy
        omega
    rename_i hroom hahead
    -- Whatever has room lies behind `x`.
    have hover {z : Nat} (hz : Room good bytes base limit (x :: rest) z) : x.stop ≤ z := by
      have hlow := hz.low
      rcases hz.apart x List.mem_cons_self with hbefore | hafter
      · have hbefore : z + bytes ≤ x.base := hbefore
        omega
      · exact hafter
    have hrest {low z : Nat} (hle : base ≤ low) (hlow : x.stop ≤ low) :
        Room good bytes low limit rest z → Room good bytes base limit (x :: rest) z := by
      rintro ⟨hg, hz, hlimit, hapart⟩
      refine ⟨hg, Nat.le_trans hle hz, hlimit, fun y hy => ?_⟩
      rcases List.mem_cons.mp hy with rfl | hy
      · exact .inr (Nat.le_trans hlow hz)
      · exact hapart y hy
    have hback {low z : Nat} (hlow : low ≤ z) (hz : Room good bytes base limit (x :: rest) z) :
        Room good bytes low limit rest z :=
      ⟨hz.good, hlow, hz.limit, fun y hy => hz.apart y (List.mem_cons_of_mem _ hy)⟩
    split
    · rename_i hmeets
      have hround := hup x.stop
      split
      · rename_i next hnext
        rw [hnext] at hround
        obtain ⟨hgood, hle, hleast⟩ := hround
        refine (ih hgood hs.2).congr fun z => ⟨hrest (by omega) hle, fun hz => ?_⟩
        exact hback (hleast z hz.good (hover hz)) hz
      · rename_i hnext
        rw [hnext] at hround
        exact fun z hz => hround z hz.good (hover hz)
    · rename_i hclear
      refine (ih hbase hs.2).congr fun z => ⟨hrest (Nat.le_refl _) (by omega), fun hz => ?_⟩
      exact hback hz.low hz

end Extent
end NvidiaGsp
