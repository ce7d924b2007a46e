import FiniteDifference.Proofs.Coefficients.ZeroPattern
import Mathlib.Data.Nat.Choose.Cast
import Mathlib.NumberTheory.Harmonic.Defs

/-!
# Weights of consecutive offsets

The offsets of a stencil are consecutive integers, so seen from one of them the others are the positive
integers up to some bound on either side.  The distances from them multiply to two factorials.  This gives
the weights of the greatest order that a grid allows, which are binomial coefficients, and those of the
first derivative, where the node polynomial of the other offsets has the factor `X`.
-/

namespace FiniteDifference.Coefficients

open Polynomial

/-! ## Products over one side -/

theorem ascending_succ (m : ℕ) : ascending (m + 1) = ascending m ++ [(m : ℤ) + 1] := by
  rw [ascending, List.range_succ, List.map_append, ← ascending, List.map_singleton]

/-- **Distances from one side.** The node polynomial of the offsets on one side of an offset has a
factorial as its value there, up to a sign. -/
theorem eval_nodePolynomial_side (o ε : ℤ) (m : ℕ) :
    (nodePolynomial ((ascending m).map (o + ε * ·))).eval (o : ℚ) = (-ε) ^ m * m.factorial := by
  induction m with
  | zero => simp [ascending, nodePolynomial]
  | succ m ih =>
    rw [ascending_succ, List.map_append, nodePolynomial_append, eval_mul, ih, List.map_singleton,
      nodePolynomial_cons, Nat.factorial_succ]
    simp only [nodePolynomial, List.map_nil, List.prod_nil, mul_one, eval_sub, eval_X, eval_C]
    push_cast
    ring

/-- The reciprocals of the positive integers up to a bound, with a sign. -/
theorem sum_inv_side {ε : ℤ} (hε : ε * ε = 1) (m : ℕ) :
    (((ascending m).map (0 + ε * ·)).map fun r : ℤ => (r : ℚ)⁻¹).sum = ε * harmonic m := by
  have hinv : (ε : ℚ)⁻¹ = ε := inv_eq_of_mul_eq_one_left (by exact_mod_cast hε)
  induction m with
  | zero => simp [ascending]
  | succ m ih =>
    rw [ascending_succ, List.map_append, List.map_append, List.sum_append, ih, harmonic_succ, mul_add]
    simp [hinv, mul_comm]

/-- The linear coefficient of a node polynomial is the constant one times the opposite of the sum of the
reciprocals of the roots. -/
theorem coeff_one_nodePolynomial {roots : List ℤ} (h : 0 ∉ roots) :
    (nodePolynomial roots).coeff 1
      = -(roots.map fun r : ℤ => (r : ℚ)⁻¹).sum * (nodePolynomial roots).coeff 0 := by
  induction roots with
  | nil => simp [nodePolynomial, coeff_one]
  | cons r roots ih =>
    rw [List.mem_cons, not_or] at h
    have hr : (r : ℚ) ≠ 0 := Int.cast_ne_zero.mpr (Ne.symm h.1)
    rw [nodePolynomial_cons, sub_mul, coeff_sub, coeff_sub, coeff_X_mul, coeff_X_mul_zero, coeff_C_mul,
      coeff_C_mul, ih h.2, List.map_cons, List.sum_cons]
    field_simp
    ring

/-! ## Signs -/

/-- Signs agree if their exponents have an even sum. -/
theorem neg_one_pow_eq {a b c : ℕ} (h : a + b = 2 * c) : (-1 : ℚ) ^ a = (-1) ^ b :=
  neg_one_pow_congr (Nat.even_add.mp ⟨c, by omega⟩)

/-- A quotient of signs is the sign whose exponent makes the sum of all three even. -/
theorem neg_one_pow_div {a b c e : ℕ} (h : a + b + c = 2 * e) :
    (-1 : ℚ) ^ a / (-1) ^ b = (-1) ^ c := by
  rw [div_eq_iff (pow_ne_zero _ (by norm_num)), ← pow_add]
  exact neg_one_pow_eq (c := e) (by omega)

end FiniteDifference.Coefficients

namespace FiniteDifference.Stencil

open Coefficients Polynomial

/-! ## The other offsets -/

/-- The offsets on either side of an offset. -/
def others (s : Stencil) (o : ℤ) : List ℤ :=
  (ascending (o - s.left).toNat).map (o + -1 * ·) ++ (ascending (s.right - o).toNat).map (o + 1 * ·)

/-- **The other offsets** are those on either side. -/
theorem offsets_perm_others (s : Stencil) {o : ℤ} (ho : o ∈ s.offsets) :
    s.offsets.Perm (o :: s.others o) := by
  obtain ⟨hleft, hright⟩ := (s.mem_offsets o).mp ho
  refine s.offsets_perm ?_ fun i => ?_
  · rw [others, List.nodup_cons, List.nodup_append]
    refine ⟨?_, (nodup_ascending _).map fun a b hab => by simpa using hab,
      (nodup_ascending _).map fun a b hab => by simpa using hab, ?_⟩
    · simp only [List.mem_append, List.mem_map, mem_ascending]
      omega
    · intro a ha b hb
      simp only [List.mem_map, mem_ascending] at ha hb
      omega
  · simp only [others, List.mem_cons, List.mem_append, List.mem_map, mem_ascending]
    constructor
    · rintro (rfl | ⟨a, ha, rfl⟩ | ⟨a, ha, rfl⟩) <;> omega
    · intro hi
      rcases lt_trichotomy i o with hlow | rfl | hhigh
      · exact .inr (.inl ⟨o - i, by omega, by ring⟩)
      · exact .inl rfl
      · exact .inr (.inr ⟨i - o, by omega, by ring⟩)

/-- The distances of an offset from the others multiply to two factorials, up to a sign. -/
theorem eval_nodePolynomial_others (s : Stencil) (o : ℤ) :
    (nodePolynomial (s.others o)).eval (o : ℚ)
      = (-1) ^ (s.right - o).toNat * (o - s.left).toNat.factorial * (s.right - o).toNat.factorial := by
  rw [others, nodePolynomial_append, eval_mul, eval_nodePolynomial_side, eval_nodePolynomial_side]
  push_cast
  ring

theorem length_others (s : Stencil) {o : ℤ} (ho : o ∈ s.offsets) :
    (s.others o).length = s.length - 1 := by
  have hlength := (s.offsets_perm_others ho).length_eq
  rw [length_offsets, List.length_cons] at hlength
  omega

/-! ## The greatest order -/

/-- **Weights of the greatest order.** If a grid has one point more than the order of its derivative, its
weights are binomial coefficients with alternating signs, the one at the highest offset being positive. -/
theorem weight_of_length_eq_succ (s : Stencil) (hlength : s.length = s.order + 1) {o : ℤ}
    (ho : o ∈ s.offsets) :
    weight s.offsets s.order o
      = (-1) ^ (s.right - o).toNat * (s.order.choose (o - s.left).toNat : ℚ) := by
  obtain ⟨hleft, hright⟩ := (s.mem_offsets o).mp ho
  have hleading : (nodePolynomial (s.others o)).coeff s.order = 1 := by
    have hdegree : (nodePolynomial (s.others o)).natDegree = s.order := by
      rw [natDegree_nodePolynomial, s.length_others ho, hlength, Nat.add_sub_cancel]
    rw [← hdegree]
    exact monic_nodePolynomial _
  have hsides : s.order = (o - s.left).toNat + (s.right - o).toNat := by
    rw [length] at hlength
    rw [left, right] at *
    omega
  have hsign : ((-1 : ℚ) ^ (s.right - o).toNat) * (-1) ^ (s.right - o).toNat = 1 := by
    rw [← mul_pow, neg_one_mul, neg_neg, one_pow]
  rw [weight_eq_div s.nodup_offsets (s.offsets_perm_others ho), hleading, eval_nodePolynomial_others,
    mul_one]
  conv_lhs => rw [hsides]
  conv_rhs => rw [hsides, Nat.cast_add_choose]
  field_simp
  linear_combination -hsign

/-! ## The first derivative -/

/-- **Weights of the first derivative.** Away from zero they are quotients of factorials. -/
theorem weight_one_of_ne_zero (s : Stencil) {o : ℤ} (ho : o ∈ s.offsets) (hne : o ≠ 0) :
    weight s.offsets 1 o
      = (-1) ^ (o.natAbs + 1) * (s.behind.factorial * s.ahead.factorial)
        / (o * ((o - s.left).toNat.factorial * (s.right - o).toNat.factorial)) := by
  have hzero := s.offsets_perm_others s.zero_mem_offsets
  have hother := s.offsets_perm_others ho
  -- without the offset and zero, the same offsets are left from either list
  have hmem : 0 ∈ s.others o :=
    (List.mem_cons.mp (hother.mem_iff.mp s.zero_mem_offsets)).resolve_left (Ne.symm hne)
  have hrest := List.perm_cons_erase hmem
  have hswap : (s.others 0).Perm (o :: (s.others o).erase 0) := by
    refine List.Perm.cons_inv (a := 0) (hzero.symm.trans (hother.trans ?_))
    exact (hrest.cons o).trans (.swap 0 o _)
  have hconstant : (nodePolynomial ((s.others o).erase 0)).coeff 0 * -(o : ℚ)
      = (-1) ^ s.ahead * s.behind.factorial * s.ahead.factorial := by
    have hvalue := s.eval_nodePolynomial_others 0
    rw [nodePolynomial_perm hswap, nodePolynomial_cons, eval_mul, Int.cast_zero,
      ← coeff_zero_eq_eval_zero (nodePolynomial _), left, right] at hvalue
    simpa [mul_comm] using hvalue
  have hne' : (o : ℚ) ≠ 0 := Int.cast_ne_zero.mpr hne
  have hsolved : (nodePolynomial ((s.others o).erase 0)).coeff 0
      = (-1) ^ (s.ahead + 1) * (s.behind.factorial * s.ahead.factorial) / o := by
    rw [eq_div_iff hne']
    linear_combination -hconstant
  have hsign : (-1 : ℚ) ^ (s.ahead + 1) / (-1) ^ (s.right - o).toNat = (-1) ^ (o.natAbs + 1) := by
    have hright : o ≤ s.ahead := ((s.mem_offsets o).mp ho).2
    rw [right]
    exact neg_one_pow_div (e := s.ahead + 1 + (-o).toNat) (by omega)
  rw [weight_eq_div s.nodup_offsets hother, eval_nodePolynomial_others, nodePolynomial_perm hrest,
    nodePolynomial_zero_cons, coeff_X_mul, hsolved, Nat.factorial_one, Nat.cast_one, one_mul, ← hsign]
  field_simp

/-- At zero the weight of the first derivative is the difference of two harmonic numbers. -/
theorem weight_one_zero (s : Stencil) :
    weight s.offsets 1 0 = harmonic s.behind - harmonic s.ahead := by
  have hperm := s.offsets_perm_others s.zero_mem_offsets
  have hmem : (0 : ℤ) ∉ s.others 0 := (List.nodup_cons.mp (hperm.nodup_iff.mp s.nodup_offsets)).1
  have hvalue := eval_nodePolynomial_others_ne_zero s.nodup_offsets hperm
  have hsum : ((s.others 0).map fun r : ℤ => (r : ℚ)⁻¹).sum = harmonic s.ahead - harmonic s.behind := by
    rw [others, List.map_append, List.sum_append, sum_inv_side (by norm_num), sum_inv_side (by norm_num),
      left, right]
    simp
    ring
  rw [weight_eq_div s.nodup_offsets hperm, coeff_one_nodePolynomial hmem, hsum]
  rw [Int.cast_zero, ← coeff_zero_eq_eval_zero] at hvalue ⊢
  field_simp
  simp

end FiniteDifference.Stencil
