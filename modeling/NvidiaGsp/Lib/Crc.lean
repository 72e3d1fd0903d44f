import Mathlib

/-!
# Lib.Crc

Checksums by polynomial division over GF(2). Bits in order of transmission are the polynomial
`series`, the first bit with the highest power; the bits of a register are the polynomial `low`. A
shift register that subtracts the generator whenever a bit leaves it holds the remainder of what was
shifted in (`remainder_step`). A generator with a constant term divides no error shorter than itself
(`burst_detected`).
-/

namespace NvidiaGsp
namespace Crc

open Polynomial Finset

def bit (b : Bool) : ZMod 2 := if b = true then 1 else 0

theorem bit_xor (a b : Bool) : bit (a ^^ b) = bit a + bit b := by
  cases a <;> cases b <;> decide

theorem bit_and (a b : Bool) : bit (a && b) = bit a * bit b := by
  cases a <;> cases b <;> decide

/-- The first `n` bits of a stream. -/
noncomputable def series (f : Nat → Bool) (n : Nat) : (ZMod 2)[X] :=
  ∑ i ∈ range n, C (bit (f i)) * X ^ (n - 1 - i)

/-- The low `w` bits of a register. -/
noncomputable def low (r : Nat → Bool) (w : Nat) : (ZMod 2)[X] :=
  ∑ k ∈ range w, C (bit (r k)) * X ^ k

variable {f g : Nat → Bool} {n w : Nat}

theorem series_zero : series f 0 = 0 := rfl

theorem series_succ : series f (n + 1) = X * series f n + C (bit (f n)) := by
  unfold series
  rw [sum_range_succ, mul_sum]
  refine congrArg₂ (· + ·) ?_ ?_
  · apply sum_congr rfl
    intro i hi
    have hlt := mem_range.mp hi
    have hpow : n + 1 - 1 - i = n - 1 - i + 1 := by omega
    rw [hpow, pow_succ]
    ring
  · simp

theorem coeff_series (k : Nat) : (series f n).coeff k = if k < n then bit (f (n - 1 - k)) else 0 := by
  induction n generalizing k with
  | zero => simp [series_zero]
  | succ n ih =>
    rw [series_succ]
    cases k with
    | zero => simp
    | succ k =>
      rw [coeff_add, coeff_X_mul, coeff_C_succ, add_zero, ih]
      have hat : n + 1 - 1 - (k + 1) = n - 1 - k := by omega
      simp only [Nat.add_lt_add_iff_right, hat]

/-- The stream goes on with zeros. -/
theorem series_zeros (h : ∀ i, n ≤ i → f i = false) (k : Nat) : series f (n + k) = X ^ k * series f n := by
  induction k with
  | zero => simp
  | succ k ih =>
    rw [← Nat.add_assoc, series_succ, ih, h (n + k) (by omega), pow_succ]
    simp only [bit, Bool.false_eq_true, if_false, map_zero, add_zero]
    ring

theorem series_xor : series (fun i => f i ^^ g i) n = series f n + series g n := by
  unfold series
  rw [← sum_add_distrib]
  apply sum_congr rfl
  intro i _
  rw [bit_xor, C_add]
  ring

theorem series_congr (h : ∀ i < n, f i = g i) : series f n = series g n := by
  apply sum_congr rfl
  intro i hi
  rw [h i (mem_range.mp hi)]

/-- One stream behind another. -/
theorem series_append (k : Nat) :
    series f (n + k) = X ^ k * series f n + series (fun i => f (n + i)) k := by
  induction k with
  | zero => simp [series_zero]
  | succ k ih =>
    rw [← Nat.add_assoc, series_succ, ih, series_succ, pow_succ]
    ring

/-- The bits of a register, sent from the top. -/
theorem series_low (r : Nat → Bool) : series (fun i => r (w - 1 - i)) w = low r w :=
  sum_range_reflect (fun k => C (bit (r k)) * X ^ k) w

theorem low_congr {r r' : Nat → Bool} (h : ∀ k < w, r k = r' k) : low r w = low r' w := by
  apply sum_congr rfl
  intro k hk
  rw [h k (mem_range.mp hk)]

/-- Bits above the register are masked off. -/
theorem low_masked {r r' : Nat → Bool} {v : Nat} (hv : w ≤ v)
    (h : ∀ k < v, r' k = (r k && decide (k < w))) : low r' v = low r w := by
  obtain ⟨j, rfl⟩ := Nat.exists_eq_add_of_le hv
  unfold low
  rw [sum_range_add, sum_eq_zero (s := range j), add_zero]
  · apply sum_congr rfl
    intro k hk
    have hlt := mem_range.mp hk
    rw [h k (by omega)]
    simp [hlt]
  · intro k hk
    have hlt := mem_range.mp hk
    rw [h (w + k) (by omega)]
    simp [bit]

/-! ## The register -/

theorem low_degree (r : Nat → Bool) : (low r w).degree < w := by
  rw [← series_low, degree_lt_iff_coeff_zero]
  intro k hk
  rw [coeff_series, if_neg (by omega)]

/-- The generator with low bits `q`. -/
noncomputable def generator (q : Nat → Bool) (w : Nat) : (ZMod 2)[X] := X ^ w + low q w

theorem generator_monic (q : Nat → Bool) : (generator q w).Monic := monic_X_pow_add (low_degree q)

theorem generator_degree (q : Nat → Bool) : (generator q w).degree = w := by
  have h : (low q w).degree < (X ^ w : (ZMod 2)[X]).degree := by
    rw [degree_X_pow]
    exact low_degree q
  rw [generator, degree_add_eq_left_of_degree_lt h, degree_X_pow]

/-- One shift: `b` comes in, and when a bit leaves at the top the generator is subtracted. -/
theorem low_step {r r' q : Nat → Bool} {b : Bool} {m : Nat} (hzero : r' 0 = (b ^^ (r m && q 0)))
    (hsucc : ∀ k < m, r' (k + 1) = (r k ^^ (r m && q (k + 1)))) :
    low r' (m + 1) = X * low r (m + 1) + C (bit b) - C (bit (r m)) * generator q (m + 1) := by
  have hr' : low r' (m + 1) =
      ∑ k ∈ range m, C (bit (r k)) * X ^ (k + 1) + C (bit b) + C (bit (r m)) * low q (m + 1) := by
    unfold low
    rw [sum_range_succ', sum_range_succ' _ m, mul_add, mul_sum, hzero, bit_xor, bit_and]
    have hsum : ∑ k ∈ range m, C (bit (r' (k + 1))) * X ^ (k + 1) =
        ∑ k ∈ range m, C (bit (r k)) * X ^ (k + 1) +
          ∑ k ∈ range m, C (bit (r m)) * (C (bit (q (k + 1))) * X ^ (k + 1)) := by
      rw [← sum_add_distrib]
      apply sum_congr rfl
      intro k hk
      rw [hsucc k (mem_range.mp hk), bit_xor, bit_and, C_add, C_mul]
      ring
    rw [hsum, C_add, C_mul]
    ring
  have hr : X * low r (m + 1) =
      ∑ k ∈ range m, C (bit (r k)) * X ^ (k + 1) + C (bit (r m)) * X ^ (m + 1) := by
    unfold low
    rw [sum_range_succ, mul_add, mul_sum]
    refine congrArg₂ (· + ·) ?_ ?_
    · apply sum_congr rfl
      intro k _
      ring
    · ring
  have htwo : C (bit (r m)) * generator q (m + 1) + C (bit (r m)) * generator q (m + 1) = 0 :=
    CharTwo.add_self_eq_zero _
  have hsub : -(C (bit (r m)) * generator q (m + 1)) = C (bit (r m)) * generator q (m + 1) :=
    neg_eq_of_add_eq_zero_left htwo
  rw [sub_eq_add_neg, hsub, hr', hr, generator]
  have hpow : C (bit (r m)) * X ^ (m + 1) + C (bit (r m)) * X ^ (m + 1) = 0 :=
    CharTwo.add_self_eq_zero _
  linear_combination -hpow

/-- The register holds the remainder of what was shifted in. -/
theorem remainder_step {r r' q : Nat → Bool} {b : Bool} {m : Nat} {p : (ZMod 2)[X]}
    (hzero : r' 0 = (b ^^ (r m && q 0))) (hsucc : ∀ k < m, r' (k + 1) = (r k ^^ (r m && q (k + 1))))
    (hr : low r (m + 1) = p %ₘ generator q (m + 1)) :
    low r' (m + 1) = (X * p + C (bit b)) %ₘ generator q (m + 1) := by
  have hmonic := generator_monic (w := m + 1) q
  have hdiv := modByMonic_add_div p (generator q (m + 1))
  have hstep := low_step hzero hsucc
  apply (div_modByMonic_unique (X * (p /ₘ generator q (m + 1)) + C (bit (r m))) _ hmonic
    ⟨?_, ?_⟩).2.symm
  · rw [hstep, hr]
    linear_combination X * hdiv
  · rw [generator_degree]
    exact low_degree r'

/-- A message with its remainder behind it is a multiple of the generator. -/
theorem dvd_add_remainder (p g : (ZMod 2)[X]) : g ∣ p + p %ₘ g := by
  have hdiv := modByMonic_add_div p g
  have htwo : p %ₘ g + p %ₘ g = 0 := CharTwo.add_self_eq_zero _
  refine ⟨p /ₘ g, ?_⟩
  linear_combination htwo - hdiv

/-! ## Errors -/

theorem generator_coprime {q : Nat → Bool} {m : Nat} (h : q 0 = true) :
    IsCoprime (generator q (m + 1)) X := by
  have hsplit : generator q (m + 1) = X * (X ^ m + ∑ k ∈ range m, C (bit (q (k + 1))) * X ^ k) + 1 := by
    unfold generator low
    rw [sum_range_succ', mul_add, mul_sum, h]
    have hsum : ∑ k ∈ range m, C (bit (q (k + 1))) * X ^ (k + 1) =
        ∑ k ∈ range m, X * (C (bit (q (k + 1))) * X ^ k) := by
      apply sum_congr rfl
      intro k _
      ring
    rw [hsum]
    simp [bit]
    ring
  refine ⟨1, -(X ^ m + ∑ k ∈ range m, C (bit (q (k + 1))) * X ^ k), ?_⟩
  rw [hsplit]
  ring

/-- Two streams that the generator divides and that differ only inside a window of its width are
the same. -/
theorem burst_detected {q : Nat → Bool} {m p : Nat} (hq : q 0 = true)
    (hf : generator q (m + 1) ∣ series f n) (hg : generator q (m + 1) ∣ series g n)
    (hwindow : ∀ i < n, f i ≠ g i → p ≤ i ∧ i < p + (m + 1)) : ∀ i < n, f i = g i := by
  set d : Nat → Bool := fun i => decide (i < n) && (f i ^^ g i) with hd
  have hdiff : generator q (m + 1) ∣ series d n := by
    have heq : series d n = series f n + series g n := by
      rw [← series_xor]
      apply series_congr
      intro i hi
      simp [hd, hi]
    rw [heq]
    exact dvd_add hf hg
  have hzero (i : Nat) (h : ¬ (p ≤ i ∧ i < p + (m + 1))) : d i = false := by
    by_cases hi : i < n
    · have heq : f i = g i := by
        by_contra hne
        exact h (hwindow i hi hne)
      simp [hd, heq]
    · simp [hd, hi]
  -- Behind the window only zeros follow, so the window itself is divisible.
  obtain ⟨e, k, hn, he, hbehind⟩ : ∃ e k, n = e + k ∧ e ≤ p + (m + 1) ∧ ∀ i, e ≤ i → d i = false := by
    by_cases hle : n ≤ p + (m + 1)
    · exact ⟨n, 0, rfl, hle, fun i hi => by simp [hd, Nat.not_lt.mpr hi]⟩
    · exact ⟨p + (m + 1), n - (p + (m + 1)), by omega, Nat.le_refl _, fun i hi => hzero i (by omega)⟩
  have hsmall : generator q (m + 1) ∣ series d e := by
    rw [hn, series_zeros hbehind] at hdiff
    exact (IsCoprime.pow_right (generator_coprime hq)).dvd_of_dvd_mul_left hdiff
  have hnone : series d e = 0 := by
    by_contra hne
    apply (generator_monic q).not_dvd_of_degree_lt hne _ hsmall
    rw [generator_degree, degree_lt_iff_coeff_zero]
    intro j hj
    rw [coeff_series]
    split
    · rw [hzero _ (by omega)]
      rfl
    · rfl
  intro i hi
  by_contra hne
  have hdi : d i = true := by
    simp only [hd, hi, decide_true, Bool.true_and]
    cases hfi : f i <;> cases hgi : g i <;> simp_all
  have hlt : i < e := by
    by_contra hle
    rw [hbehind i (by omega)] at hdi
    cases hdi
  have hcoeff := coeff_series (f := d) (n := e) (e - 1 - i)
  have hat : e - 1 - (e - 1 - i) = i := by omega
  rw [hnone, if_pos (by omega), hat, hdi] at hcoeff
  exact absurd hcoeff (by simp [bit])

end Crc
end NvidiaGsp
