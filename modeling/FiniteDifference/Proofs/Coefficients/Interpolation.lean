import FiniteDifference.Stencil.Coefficients
import Mathlib.LinearAlgebra.Lagrange

/-!
# Coefficients by interpolation

The weights of a grid of distinct offsets are read off its Lagrange basis.  So the weighted sum of the
values of a polynomial at the offsets selects one coefficient of the polynomial that interpolates these
values, which is the polynomial itself if its degree is below the number of offsets.
-/

namespace FiniteDifference.Coefficients

open Polynomial

/-! ## Lists of coefficients -/

/-- The factorial of the library is the usual one. -/
theorem factorial_eq (n : ℕ) : factorial n = n.factorial := by
  induction n with
  | zero => rfl
  | succ n ih => rw [factorial, ih, Nat.factorial_succ]

/-- The polynomial whose coefficients are listed, the constant one first. -/
noncomputable def ofCoefficients : List ℤ → ℚ[X]
  | [] => 0
  | a :: p => C (a : ℚ) + X * ofCoefficients p

/-- The listed numbers are the coefficients. -/
theorem coeff_ofCoefficients (p : List ℤ) (k : ℕ) :
    (ofCoefficients p).coeff k = (p.getD k 0 : ℚ) := by
  induction p generalizing k with
  | nil => simp [ofCoefficients]
  | cons a p ih =>
    cases k with
    | zero => simp [ofCoefficients]
    | succ k => rw [ofCoefficients, coeff_add, coeff_C_succ, coeff_X_mul, ih]; simp

/-- The coefficients of a product with a linear factor, where `b` is carried from the place below. -/
theorem ofCoefficients_zipWith_sub (root b : ℤ) (p : List ℤ) :
    ofCoefficients (List.zipWith (· - ·) (b :: p) (p.map (root * ·) ++ [0]))
      = C (b : ℚ) + (X - C (root : ℚ)) * ofCoefficients p := by
  induction p generalizing b with
  | nil => simp [ofCoefficients]
  | cons a p ih =>
    rw [List.map_cons, List.cons_append, List.zipWith_cons_cons, ofCoefficients, ih,
      ofCoefficients]
    push_cast
    rw [C_sub, C_mul]
    ring

/-- The polynomial that vanishes at the listed numbers. -/
noncomputable def nodePolynomial (roots : List ℤ) : ℚ[X] :=
  (roots.map fun r : ℤ => X - C (r : ℚ)).prod

theorem nodePolynomial_cons (r : ℤ) (roots : List ℤ) :
    nodePolynomial (r :: roots) = (X - C (r : ℚ)) * nodePolynomial roots := by
  rw [nodePolynomial, List.map_cons, List.prod_cons, ← nodePolynomial]

/-- The node polynomial vanishes at its roots and nowhere else. -/
theorem eval_nodePolynomial_eq_zero_iff {roots : List ℤ} {o : ℤ} :
    (nodePolynomial roots).eval (o : ℚ) = 0 ↔ o ∈ roots := by
  induction roots with
  | nil => simp [nodePolynomial]
  | cons r roots ih =>
    rw [nodePolynomial_cons, eval_mul, mul_eq_zero, ih, eval_sub, eval_X, eval_C, sub_eq_zero,
      Int.cast_inj, List.mem_cons]

/-- Multiplying out the linear factors gives the node polynomial. -/
theorem ofCoefficients_withRoots (roots : List ℤ) :
    ofCoefficients (withRoots roots) = nodePolynomial roots := by
  induction roots with
  | nil => simp [withRoots, nodePolynomial, ofCoefficients]
  | cons r roots ih =>
    have htimes : ofCoefficients (withRoots (r :: roots))
        = (X - C (r : ℚ)) * ofCoefficients (withRoots roots) := by
      rw [withRoots, List.foldr_cons, timesRoot, ofCoefficients_zipWith_sub]
      simp [withRoots]
    rw [htimes, ih, nodePolynomial_cons]

/-- The product of the distances of a number from others is the value of their node polynomial. -/
theorem separation_eq_eval (o : ℤ) (others : List ℤ) :
    (separation o others : ℚ) = (nodePolynomial others).eval (o : ℚ) := by
  induction others with
  | nil => simp [separation, nodePolynomial]
  | cons r others ih =>
    have hstep : separation o (r :: others) = (o - r) * separation o others := rfl
    rw [hstep, nodePolynomial_cons, eval_mul, ← ih]
    simp

/-! ## The Lagrange basis -/

/-- The Lagrange basis polynomial of a grid that is one at `o` and zero at the other offsets. -/
noncomputable def basisPolynomial (offsets : List ℤ) (o : ℤ) : ℚ[X] :=
  Lagrange.basis offsets.toFinset (fun i : ℤ => (i : ℚ)) o

theorem injOn_cast (s : Set ℤ) : Set.InjOn (fun i : ℤ => (i : ℚ)) s :=
  Int.cast_injective.injOn

theorem nodePolynomial_eq_nodal {roots : List ℤ} (h : roots.Nodup) :
    nodePolynomial roots = Lagrange.nodal roots.toFinset (fun i : ℤ => (i : ℚ)) := by
  rw [nodePolynomial, Lagrange.nodal, List.prod_toFinset _ h]

/-- **Weights and the Lagrange basis.** A weight is the factorial of the order times the coefficient of
the basis polynomial at that power. -/
theorem weight_eq_coeff_basis {offsets : List ℤ} (h : offsets.Nodup) (order : ℕ) {o : ℤ}
    (ho : o ∈ offsets) :
    weight offsets order o = order.factorial * (basisPolynomial offsets o).coeff order := by
  -- the other offsets are the nodes of the basis polynomial
  have hset : (offsets.filter (· ≠ o)).toFinset = offsets.toFinset.erase o := by
    ext i
    simp [and_comm]
  have hnode : nodePolynomial (offsets.filter (· ≠ o))
      = Lagrange.nodal (offsets.toFinset.erase o) (fun i : ℤ => (i : ℚ)) := by
    rw [nodePolynomial_eq_nodal (h.filter _), hset]
  have hbasis : basisPolynomial offsets o
      = C (((nodePolynomial (offsets.filter (· ≠ o))).eval (o : ℚ))⁻¹)
        * nodePolynomial (offsets.filter (· ≠ o)) := by
    rw [basisPolynomial, Lagrange.basis_eq_prod_sub_inv_mul_nodal_div (List.mem_toFinset.mpr ho),
      ← Lagrange.nodal_erase_eq_nodal_div (List.mem_toFinset.mpr ho),
      Lagrange.nodalWeight_eq_eval_nodal_erase_inv, hnode]
  rw [hbasis, coeff_C_mul, weight, factorial_eq, separation_eq_eval]
  have hcoeff : ((withRoots (offsets.filter (· ≠ o))).getD order 0 : ℚ)
      = (nodePolynomial (offsets.filter (· ≠ o))).coeff order := by
    rw [← coeff_ofCoefficients, ofCoefficients_withRoots]
  push_cast
  rw [hcoeff]
  ring

/-! ## Combinations of values -/

/-- **Combinations.** The values of a polynomial at the offsets, multiplied by the coefficients and added
up; what one list has beyond the other does not count. -/
noncomputable def combination : List ℤ → List ℚ → ℚ[X] →ₗ[ℚ] ℚ
  | o :: offsets, c :: coefficients => c • leval (o : ℚ) + combination offsets coefficients
  | _, _ => 0

theorem combination_cons (o : ℤ) (offsets : List ℤ) (c : ℚ) (coefficients : List ℚ) (p : ℚ[X]) :
    combination (o :: offsets) (c :: coefficients) p
      = c * p.eval (o : ℚ) + combination offsets coefficients p := by
  rw [combination, LinearMap.add_apply, LinearMap.smul_apply, leval_apply, smul_eq_mul]

/-- The combination of the values of a power is a moment. -/
theorem combination_X_pow (offsets : List ℤ) (coefficients : List ℚ) (k : ℕ) :
    combination offsets coefficients (X ^ k) = moment offsets coefficients k := by
  induction offsets generalizing coefficients with
  | nil => rfl
  | cons o offsets ih =>
    cases coefficients with
    | nil => rfl
    | cons c coefficients => rw [combination_cons, moment, ih, eval_X_pow]

/-- The combination of the values of a polynomial is made of moments. -/
theorem combination_eq_sum (offsets : List ℤ) (coefficients : List ℚ) (p : ℚ[X]) :
    combination offsets coefficients p = p.sum fun k a => a * moment offsets coefficients k := by
  conv_lhs => rw [p.as_sum_support_C_mul_X_pow]
  rw [map_sum, Polynomial.sum]
  refine Finset.sum_congr rfl fun k _ => ?_
  rw [C_mul', map_smul, combination_X_pow, smul_eq_mul]

/-- A moment as a sum. -/
theorem moment_eq_sum_zipWith (offsets : List ℤ) (coefficients : List ℚ) (k : ℕ) :
    moment offsets coefficients k
      = (List.zipWith (fun (o : ℤ) c => c * (o : ℚ) ^ k) offsets coefficients).sum := by
  induction offsets generalizing coefficients with
  | nil => rfl
  | cons o offsets ih =>
    cases coefficients with
    | nil => rfl
    | cons c coefficients => rw [moment, ih, List.zipWith_cons_cons, List.sum_cons]

/-- A factor of the coefficients is a factor of the moments. -/
theorem moment_map_mul (offsets : List ℤ) (coefficients : List ℚ) (a : ℚ) (k : ℕ) :
    moment offsets (coefficients.map (a * ·)) k = a * moment offsets coefficients k := by
  induction offsets generalizing coefficients with
  | nil => exact (mul_zero a).symm
  | cons o offsets ih =>
    cases coefficients with
    | nil => exact (mul_zero a).symm
    | cons c coefficients => rw [List.map_cons, moment, moment, ih, mul_add, mul_assoc]

/-- With a coefficient for each offset, every offset has its term. -/
theorem combination_map (offsets : List ℤ) (w : ℤ → ℚ) (p : ℚ[X]) :
    combination offsets (offsets.map w) p = (offsets.map fun o => w o * p.eval (o : ℚ)).sum := by
  induction offsets with
  | nil => rfl
  | cons o offsets ih => rw [List.map_cons, combination_cons, ih, List.map_cons, List.sum_cons]

/-- If all terms vanish, so does the combination. -/
theorem combination_eq_zero {offsets : List ℤ} {coefficients : List ℚ} {p : ℚ[X]}
    (h : ∀ o c, (o, c) ∈ offsets.zip coefficients → c * p.eval (o : ℚ) = 0) :
    combination offsets coefficients p = 0 := by
  induction offsets generalizing coefficients with
  | nil => rfl
  | cons o offsets ih =>
    cases coefficients with
    | nil => rfl
    | cons c coefficients =>
      rw [combination_cons, h o c (by simp), ih fun i a hmem => h i a (by simp [hmem]), add_zero]

/-- If a polynomial vanishes at all offsets but one, the combination of its values is the one there. -/
theorem combination_of_eval_eq_zero {offsets : List ℤ} (hnodup : offsets.Nodup)
    {coefficients : List ℚ} {o : ℤ} {c : ℚ} (hmem : (o, c) ∈ offsets.zip coefficients) {p : ℚ[X]}
    (hzero : ∀ i ∈ offsets, i ≠ o → p.eval (i : ℚ) = 0) :
    combination offsets coefficients p = c * p.eval (o : ℚ) := by
  induction offsets generalizing coefficients with
  | nil => exact absurd hmem List.not_mem_nil
  | cons i offsets ih =>
    obtain ⟨hi, hnodup⟩ := List.nodup_cons.mp hnodup
    cases coefficients with
    | nil => exact absurd hmem List.not_mem_nil
    | cons a coefficients =>
      rw [List.zip_cons_cons, List.mem_cons, Prod.mk.injEq] at hmem
      rw [combination_cons]
      rcases hmem with ⟨rfl, rfl⟩ | hmem
      · -- the offset does not occur again
        have hrest : combination offsets coefficients p = 0 := by
          refine combination_eq_zero fun j b hj => ?_
          have hj := (List.of_mem_zip hj).1
          rw [hzero j (List.mem_cons_of_mem _ hj) (ne_of_mem_of_not_mem hj hi), mul_zero]
        rw [hrest, add_zero]
      · have hne : i ≠ o := (ne_of_mem_of_not_mem (List.of_mem_zip hmem).1 hi).symm
        rw [hzero i List.mem_cons_self hne, mul_zero, zero_add]
        exact ih hnodup hmem fun j hj => hzero j (List.mem_cons_of_mem _ hj)

/-! ## Weighted sums of values -/

/-- **Weighted sum.** The values of a polynomial at the offsets, weighted and added up. -/
noncomputable def weightedSum (offsets : List ℤ) (order : ℕ) (p : ℚ[X]) : ℚ :=
  (offsets.map fun o => weight offsets order o * p.eval (o : ℚ)).sum

theorem weightedSum_eq_combination (offsets : List ℤ) (order : ℕ) (p : ℚ[X]) :
    weightedSum offsets order p = combination offsets (offsets.map (weight offsets order)) p := by
  rw [weightedSum, combination_map]

/-- A moment of the weights of a grid is the weighted sum of the values of a power. -/
theorem moment_map_weight (offsets : List ℤ) (order k : ℕ) :
    moment offsets (offsets.map (weight offsets order)) k
      = weightedSum offsets order (X ^ k) := by
  rw [weightedSum_eq_combination, combination_X_pow]

theorem weightedSum_add (offsets : List ℤ) (order : ℕ) (p q : ℚ[X]) :
    weightedSum offsets order (p + q) = weightedSum offsets order p + weightedSum offsets order q := by
  simp only [weightedSum_eq_combination, map_add]

theorem weightedSum_eq_sum (offsets : List ℤ) (order : ℕ) (p : ℚ[X]) :
    weightedSum offsets order p = p.sum fun k c => c * weightedSum offsets order (X ^ k) := by
  simp only [weightedSum_eq_combination, combination_X_pow]
  exact combination_eq_sum _ _ p

/-- **Selection.** The weighted sum of the values of a polynomial of degree below the number of offsets is
the factorial of the order times the coefficient at that power. -/
theorem weightedSum_of_degree_lt {offsets : List ℤ} (h : offsets.Nodup) (order : ℕ) {p : ℚ[X]}
    (hp : p.degree < offsets.length) :
    weightedSum offsets order p = order.factorial * p.coeff order := by
  have hcard : offsets.toFinset.card = offsets.length := List.toFinset_card_of_nodup h
  have hinterp : p = ∑ o ∈ offsets.toFinset, C (p.eval (o : ℚ)) * basisPolynomial offsets o := by
    exact Lagrange.eq_interpolate (injOn_cast _) (by rw [hcard]; exact hp)
  calc weightedSum offsets order p
      = ∑ o ∈ offsets.toFinset, weight offsets order o * p.eval (o : ℚ) := by
        rw [weightedSum, List.sum_toFinset _ h]
    _ = ∑ o ∈ offsets.toFinset,
          order.factorial * (p.eval (o : ℚ) * (basisPolynomial offsets o).coeff order) := by
        refine Finset.sum_congr rfl fun o ho => ?_
        rw [weight_eq_coeff_basis h order (List.mem_toFinset.mp ho)]
        ring
    _ = order.factorial * p.coeff order := by
        rw [← Finset.mul_sum]
        conv_rhs => rw [hinterp, finsetSum_coeff]
        simp only [coeff_C_mul]

/-- **Moments of weights.** Below the number of offsets, the moment at the order is its factorial and all
others vanish. -/
theorem moment_map_weight_of_lt {offsets : List ℤ} (h : offsets.Nodup) (order : ℕ) {k : ℕ}
    (hk : k < offsets.length) :
    moment offsets (offsets.map (weight offsets order)) k
      = if k = order then (order.factorial : ℚ) else 0 := by
  have hdegree : (X ^ k : ℚ[X]).degree < offsets.length := by
    rw [degree_X_pow]
    exact_mod_cast hk
  rw [moment_map_weight, weightedSum_of_degree_lt h order hdegree, coeff_X_pow, mul_ite, mul_one,
    mul_zero]
  exact if_congr eq_comm rfl rfl

/-- Multiples of the node polynomial vanish at all offsets, so their weighted sum is zero. -/
theorem weightedSum_nodePolynomial_mul (offsets : List ℤ) (order : ℕ) (q : ℚ[X]) :
    weightedSum offsets order (nodePolynomial offsets * q) = 0 := by
  rw [weightedSum_eq_combination]
  refine combination_eq_zero fun o c hmem => ?_
  have hroot := eval_nodePolynomial_eq_zero_iff.mpr (List.of_mem_zip hmem).1
  rw [eval_mul, hroot, zero_mul, mul_zero]

end FiniteDifference.Coefficients
