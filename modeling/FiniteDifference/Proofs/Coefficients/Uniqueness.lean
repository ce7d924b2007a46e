import FiniteDifference.Proofs.Coefficients.NodePolynomial

/-!
# Coefficients determined by moments

As many consecutive moments as there are offsets determine the coefficients over distinct offsets.  The
node polynomial of the other offsets singles out the coefficient at one offset, and the combination of its
values is made of these moments.  Moments from a later power on say nothing about the coefficient at zero,
and determine all others.
-/

namespace FiniteDifference.Coefficients

open Polynomial

/-! ## Singling out an offset -/

/-- **Singling out.** The combination with a multiple of the node polynomial of the other offsets has one
term. -/
theorem combination_mul_nodePolynomial_erase {offsets : List ℤ} (hnodup : offsets.Nodup)
    {coefficients : List ℚ} {o : ℤ} {c : ℚ} (hmem : (o, c) ∈ offsets.zip coefficients) (q : ℚ[X]) :
    combination offsets coefficients (q * nodePolynomial (offsets.erase o))
      = c * (q.eval (o : ℚ) * (nodePolynomial (offsets.erase o)).eval (o : ℚ)) := by
  rw [combination_of_eval_eq_zero hnodup hmem, eval_mul]
  intro i hi hne
  rw [eval_mul, eval_nodePolynomial_eq_zero_iff.mpr ((List.mem_erase_of_ne hne).mpr hi), mul_zero]

/-- The powers of that multiple are as many as there are offsets. -/
theorem mem_support_X_pow_mul_nodePolynomial_erase {offsets : List ℤ} {o : ℤ} (ho : o ∈ offsets)
    {least k : ℕ} (hk : k ∈ (X ^ least * nodePolynomial (offsets.erase o)).support) :
    least ≤ k ∧ k < least + offsets.length := by
  have hpos := List.length_pos_of_mem ho
  rw [mem_support_iff, coeff_X_pow_mul'] at hk
  have hle : least ≤ k := by
    by_contra hlt
    exact hk (if_neg hlt)
  rw [if_pos hle] at hk
  have hdegree := le_natDegree_of_ne_zero hk
  rw [natDegree_nodePolynomial, List.length_erase_of_mem ho] at hdegree
  omega

/-! ## Determined coefficients -/

/-- **Determination.** If two lists of coefficients have the same moments at as many consecutive powers as
there are offsets, they agree at each offset, except perhaps at zero if the powers do not start from
zero. -/
theorem eq_of_moment_eq {offsets : List ℤ} (hnodup : offsets.Nodup) {v w : List ℚ} {o : ℤ} {a b : ℚ}
    (ha : (o, a) ∈ offsets.zip v) (hb : (o, b) ∈ offsets.zip w) {least : ℕ} (ho : o ≠ 0 ∨ least = 0)
    (h : ∀ k, least ≤ k → k < least + offsets.length → moment offsets v k = moment offsets w k) :
    a = b := by
  have hmem := (List.of_mem_zip ha).1
  have hsame : combination offsets v (X ^ least * nodePolynomial (offsets.erase o))
      = combination offsets w (X ^ least * nodePolynomial (offsets.erase o)) := by
    rw [combination_eq_sum, combination_eq_sum]
    refine Finset.sum_congr rfl fun k hk => ?_
    obtain ⟨hlow, hhigh⟩ := mem_support_X_pow_mul_nodePolynomial_erase hmem hk
    exact congrArg (_ * ·) (h k hlow hhigh)
  rw [combination_mul_nodePolynomial_erase hnodup ha, combination_mul_nodePolynomial_erase hnodup hb]
    at hsame
  -- the polynomial does not vanish at the offset itself
  refine mul_right_cancel₀ (mul_ne_zero ?_ ?_) hsame
  · rw [eval_X_pow]
    rcases ho with hne | rfl
    · exact pow_ne_zero _ (Int.cast_ne_zero.mpr hne)
    · rw [pow_zero]
      exact one_ne_zero
  · rw [Ne, eval_nodePolynomial_eq_zero_iff]
    exact hnodup.not_mem_erase

/-- **Uniqueness.** Coefficients, one for each offset, are determined by the moments below the number of
offsets. -/
theorem eq_of_moment_eq_of_length {offsets : List ℤ} (hnodup : offsets.Nodup) {v w : List ℚ}
    (hv : v.length = offsets.length) (hw : w.length = offsets.length)
    (h : ∀ k < offsets.length, moment offsets v k = moment offsets w k) : v = w := by
  have hzip : ∀ {u : List ℚ}, u.length = offsets.length → ∀ i (hi : i < offsets.length)
      (hi' : i < u.length), (offsets[i], u[i]) ∈ offsets.zip u := by
    intro u hu i hi hi'
    have hlt : i < (offsets.zip u).length := by
      rw [List.length_zip]
      omega
    have hmem := List.getElem_mem hlt
    rwa [List.getElem_zip] at hmem
  refine List.ext_getElem (hv.trans hw.symm) fun i hi hi' => ?_
  have hlt : i < offsets.length := hv ▸ hi
  exact eq_of_moment_eq hnodup (hzip hv i hlt hi) (hzip hw i hlt hi') (.inr rfl)
    fun k _ hk => h k (by omega)

/-- If the moments vanish at as many consecutive powers as there are offsets, the coefficients vanish except
perhaps at zero. -/
theorem eq_zero_of_moment_eq_zero {offsets : List ℤ} (hnodup : offsets.Nodup) {v : List ℚ} {least : ℕ}
    (h : ∀ k, least ≤ k → k < least + offsets.length → moment offsets v k = 0) {o : ℤ} {a : ℚ}
    (ha : (o, a) ∈ offsets.zip v) (ho : o ≠ 0) : a = 0 := by
  -- the same moments belong to the coefficients that are all zero
  have hzip : (offsets.map id).zip (offsets.map fun _ => (0 : ℚ)) = offsets.map fun i => (i, 0) :=
    List.zip_map'
  rw [List.map_id] at hzip
  have hnone : ∀ k, moment offsets (offsets.map fun _ => (0 : ℚ)) k = 0 := by
    intro k
    rw [← combination_X_pow, combination_map]
    simp
  refine eq_of_moment_eq hnodup ha (w := offsets.map fun _ => 0) ?_ (.inl ho)
    fun k hlow hhigh => (h k hlow hhigh).trans (hnone k).symm
  rw [hzip]
  exact List.mem_map_of_mem (List.of_mem_zip ha).1

/-- Then all moments but the first vanish. -/
theorem moment_eq_zero_of_window {offsets : List ℤ} (hnodup : offsets.Nodup) {v : List ℚ} {least : ℕ}
    (h : ∀ k, least ≤ k → k < least + offsets.length → moment offsets v k = 0) {k : ℕ} (hk : 0 < k) :
    moment offsets v k = 0 := by
  rw [← combination_X_pow]
  refine combination_eq_zero fun o c hmem => ?_
  rw [eval_X_pow]
  by_cases ho : o = 0
  · rw [ho, Int.cast_zero, zero_pow hk.ne', mul_zero]
  · rw [eq_zero_of_moment_eq_zero hnodup h hmem ho, zero_mul]

end FiniteDifference.Coefficients
