import Mathlib.Analysis.Convex.SpecificFunctions.Basic
import FiniteDifference.Bandwidth.Optimal
import FiniteDifference.Proofs.Real.Arithmetic
import FiniteDifference.Proofs.Stencil.Grid

/-!
# The optimal bandwidth minimises the error

The error of an estimate is at most the condition and round-off errors of the samples, which the divisor
`h ^ d` magnifies, plus the truncation error, which grows like `h ^ n`.  Over the real numbers the closed
form for the bandwidth is the only minimiser of this bound.
-/

namespace FiniteDifference.Optimal

/-! ## The bound on the error -/

/-- **The error of the samples.** The condition error and the round-off error of samples of some magnitude,
contracted with coefficients of some norm. -/
noncomputable def sampleError (epsilon norm magnitude : ℝ) : ℝ :=
  epsilon * magnitude * norm + Scalar.epsilon * magnitude * norm / (2 : ℚ)

/-- **The total error.** The error of the samples over the divisor of the estimate, plus the truncation
error. -/
noncomputable def totalError (d n : ℤ) (scale epsilon norm magnitude h : ℝ) : ℝ :=
  sampleError epsilon norm magnitude / h ^ d + h ^ n / scale

theorem epsilon_pos : (0 : ℝ) < Scalar.epsilon := Rat.cast_pos.mpr (by norm_num)

theorem sampleError_pos {epsilon norm magnitude : ℝ} (hepsilon : 0 < epsilon) (hnorm : 0 < norm)
    (hmagnitude : 0 < magnitude) : 0 < sampleError epsilon norm magnitude :=
  add_pos (mul_pos (mul_pos hepsilon hmagnitude) hnorm)
    (div_pos (mul_pos (mul_pos epsilon_pos hmagnitude) hnorm) (Rat.cast_pos.mpr two_pos))

/-! ## The minimum -/

variable {d n : ℕ}

/-- The weighted mean of `1` and `t ^ (n + d)` is above `t ^ d`, unless `t` is one. -/
theorem add_mul_pow_lt (hd : 0 < d) (hn : 0 < n) {t : ℝ} (ht : 0 < t) (hne : t ≠ 1) :
    (n + d) * t ^ d < n + d * t ^ (n + d) := by
  have hd' : (0 : ℝ) < d := Nat.cast_pos.mpr hd
  have hn' : (0 : ℝ) < n := Nat.cast_pos.mpr hn
  have hpow : t ^ d - 1 ≠ 0 := sub_ne_zero.mpr ((pow_eq_one_iff_of_nonneg ht.le hd.ne').not.mpr hne)
  have hexponent : 1 < ((n : ℝ) + d) / d := (one_lt_div hd').mpr (lt_add_of_pos_left _ hn')
  have hroot : (1 + (t ^ d - 1)) ^ (((n : ℝ) + d) / d) = t ^ (n + d) := by
    rw [add_sub_cancel, ← Real.rpow_natCast_mul ht.le, mul_div_cancel₀ _ hd'.ne', ← Nat.cast_add,
      Real.rpow_natCast]
  -- Bernoulli's inequality at `t ^ d - 1`
  have hbernoulli := one_add_mul_self_lt_rpow_one_add (by linarith [pow_pos ht d]) hpow hexponent
  rw [hroot] at hbernoulli
  calc ((n : ℝ) + d) * t ^ d = n + d * (1 + (n + d) / d * (t ^ d - 1)) := by
        field_simp
        ring
    _ < n + d * t ^ (n + d) := by gcongr

/-- **The balanced bandwidth is better than any other.** The balance is that the derivative of the bound
vanishes. -/
theorem bound_lt_of_balanced (hd : 0 < d) (hn : 0 < n) {scale A h y : ℝ} (hscale : 0 < scale)
    (hh : 0 < h) (hy : 0 < y) (hne : y ≠ h) (hbalance : n * h ^ (n + d) = d * (scale * A)) :
    A / h ^ d + h ^ n / scale < A / y ^ d + y ^ n / scale := by
  have hd' : (0 : ℝ) < d := Nat.cast_pos.mpr hd
  have hA : A = n * h ^ (n + d) / (d * scale) := by
    rw [hbalance]
    field_simp
  obtain ⟨t, ht, rfl⟩ : ∃ t, 0 < t ∧ y = t * h := ⟨y / h, div_pos hy hh, by field_simp⟩
  have ht1 : t ≠ 1 := by
    rintro rfl
    exact hne (one_mul h)
  -- both bounds are multiples of the two sides of the inequality between the means
  have hfactor : 0 < h ^ n / (d * scale * t ^ d) := by positivity
  calc A / h ^ d + h ^ n / scale = h ^ n / (d * scale * t ^ d) * ((n + d) * t ^ d) := by
        rw [hA]
        field_simp
        ring
    _ < h ^ n / (d * scale * t ^ d) * (n + d * t ^ (n + d)) :=
        mul_lt_mul_of_pos_left (add_mul_pow_lt hd hn ht ht1) hfactor
    _ = A / (t * h) ^ d + (t * h) ^ n / scale := by
        rw [hA]
        field_simp
        ring

/-! ## The closed form -/

/-- The form for stencils, by which the strategies choose, is the form for orders of any kind. -/
theorem ofStencil_eq_ofArguments {α : Type} [Scalar α] (s : Stencil) (scale epsilon norm magnitude : α) :
    ofStencil s scale epsilon norm magnitude
      = ofArguments (.int s.order) (.int s.accuracy) (.real scale) (.real epsilon) (.real norm)
        (.real magnitude) :=
  rfl

theorem root_eq {base : ℝ} (hbase : base ≠ 0) (exponent : ℝ) :
    root base exponent = .ok (base ^ exponent) := by
  rw [root, Real.isZero_eq_false hbase]
  rfl

theorem base_pos (hd : 0 < d) (hn : 0 < n) {scale A : ℝ} (hscale : 0 < scale) (hA : 0 < A) :
    0 < (d : ℝ) / n * scale * A := by
  have hd' : (0 : ℝ) < d := Nat.cast_pos.mpr hd
  have hn' : (0 : ℝ) < n := Nat.cast_pos.mpr hn
  positivity

/-- **The closed form.** Over the real numbers the bandwidth is the root of order `n + d` of `d / n` times
the scale and the error of the samples. -/
theorem ofArguments_eq (hd : 0 < d) (hn : 0 < n) {scale epsilon norm magnitude : Quantity ℝ}
    (hscale : 0 < scale.value)
    (hA : 0 < sampleError epsilon.value norm.value magnitude.value) :
    ofArguments (.int d) (.int n) scale epsilon norm magnitude
      = .ok ((d / n * scale.value * sampleError epsilon.value norm.value magnitude.value)
        ^ (((n + d : ℕ) : ℝ)⁻¹)) := by
  obtain ⟨size, hsize, hsizeValue⟩ := magnitude.exists_mul_eq norm
  obtain ⟨condition, hcondition, hconditionValue⟩ := epsilon.exists_mul_eq size
  have horder : ∀ k : ℕ, (Argument.int k : Argument ℝ).toScalar = .ok (k : ℝ) := fun k =>
    (Quantity.toScalar_eq (.int k)).trans (congrArg Except.ok (Int.cast_natCast k))
  have hn' : (n : ℝ) ≠ 0 := Nat.cast_ne_zero.mpr hn.ne'
  have htotal : (n : ℝ) + d ≠ 0 := by
    rw [← Nat.cast_add]
    exact Nat.cast_ne_zero.mpr (Nat.add_pos_left hn d).ne'
  have herror : condition.value + roundOff size.value
      = sampleError epsilon.value norm.value magnitude.value := by
    rw [sampleError, hconditionValue, hsizeValue, mul_assoc, mul_assoc]
    rfl
  have hbase := base_pos hd hn hscale hA
  simp only [ofArguments, horder, hsize, hcondition, Quantity.toScalar_eq, Real.quotient_eq _ hn',
    bind, Except.bind, balance]
  rw [Real.quotient_eq _ htotal]
  show root (d / n * scale.value * (condition.value + roundOff size.value))
    (((1 : ℚ) : ℝ) / ((n : ℝ) + d)) = _
  rw [herror, root_eq hbase.ne', Rat.cast_one, one_div, Nat.cast_add]

/-- **The bandwidth balances the errors.** It is above zero, and the derivative of the bound vanishes
there. -/
theorem exists_ofArguments_balanced (hd : 0 < d) (hn : 0 < n)
    {scale epsilon norm magnitude : Quantity ℝ} (hscale : 0 < scale.value)
    (hA : 0 < sampleError epsilon.value norm.value magnitude.value) :
    ∃ h, ofArguments (.int d) (.int n) scale epsilon norm magnitude = .ok h ∧ 0 < h ∧
      n * h ^ (n + d)
        = d * (scale.value * sampleError epsilon.value norm.value magnitude.value) := by
  have hn' : (n : ℝ) ≠ 0 := Nat.cast_ne_zero.mpr hn.ne'
  have hbase := base_pos hd hn hscale hA
  refine ⟨_, ofArguments_eq hd hn hscale hA, Real.rpow_pos_of_pos hbase _, ?_⟩
  rw [Real.rpow_inv_natCast_pow hbase.le (Nat.add_pos_left hn d).ne']
  field_simp

/-! ## Minimality -/

/-- **Unique minimisers.** The bandwidth is above zero, and the total error of any other positive bandwidth is
greater. -/
theorem exists_ofArguments_lt (hd : 0 < d) (hn : 0 < n) {scale epsilon norm magnitude : Quantity ℝ}
    (hscale : 0 < scale.value) (hepsilon : 0 < epsilon.value) (hnorm : 0 < norm.value)
    (hmagnitude : 0 < magnitude.value) :
    ∃ h, ofArguments (.int d) (.int n) scale epsilon norm magnitude = .ok h ∧ 0 < h ∧
      ∀ y, 0 < y → y ≠ h →
        totalError d n scale.value epsilon.value norm.value magnitude.value h
          < totalError d n scale.value epsilon.value norm.value magnitude.value y := by
  obtain ⟨h, hok, hh, hbalance⟩ :=
    exists_ofArguments_balanced hd hn hscale (sampleError_pos hepsilon hnorm hmagnitude)
  refine ⟨h, hok, hh, fun y hy hne => ?_⟩
  simp only [totalError, zpow_natCast]
  exact bound_lt_of_balanced hd hn hscale hh hy hne hbalance

/-- **The optimal bandwidth minimises the total error.** For orders of at least one and positive quantities
the closed form succeeds, its bandwidth is above zero, and the total error of any other positive bandwidth
is greater. -/
theorem totalError_ofArguments_le (d n : ℤ) (hd : 1 ≤ d) (hn : 1 ≤ n)
    (scale epsilon norm magnitude : Quantity ℝ) (hscale : 0 < scale.value)
    (hepsilon : 0 < epsilon.value) (hnorm : 0 < norm.value) (hmagnitude : 0 < magnitude.value) :
    ∃ h, ofArguments (.int d) (.int n) scale epsilon norm magnitude = .ok h ∧ 0 < h ∧
      ∀ y, 0 < y →
        totalError d n scale.value epsilon.value norm.value magnitude.value h
          ≤ totalError d n scale.value epsilon.value norm.value magnitude.value y ∧
        (totalError d n scale.value epsilon.value norm.value magnitude.value y
          = totalError d n scale.value epsilon.value norm.value magnitude.value h ↔ y = h) := by
  lift d to ℕ using by omega
  lift n to ℕ using by omega
  obtain ⟨h, hok, hh, hlt⟩ := exists_ofArguments_lt (by omega : 0 < d) (by omega : 0 < n) hscale
    hepsilon hnorm hmagnitude
  refine ⟨h, hok, hh, fun y hy => ?_⟩
  by_cases hne : y = h
  · rw [hne]
    exact ⟨le_rfl, iff_of_true rfl rfl⟩
  · exact ⟨(hlt y hy hne).le, iff_of_false (hlt y hy hne).ne' hne⟩

/-- The bandwidth for a second derivative with an error of order two, samples of magnitude a half and
coefficients of norm four. -/
theorem totalError_ofArguments_le_second :
    ∃ h, ofArguments (.int 2) (.int 2) (.int 1) (.fraction (1 / 4503599627370496)) (.real 4)
        (.fraction (1 / 2)) = .ok h ∧ 0 < h ∧
      ∀ y, 0 < y →
        totalError 2 2 1 (1 / 4503599627370496) 4 (1 / 2) h
          ≤ totalError 2 2 1 (1 / 4503599627370496) 4 (1 / 2) y := by
  obtain ⟨h, hok, hh, hmin⟩ := totalError_ofArguments_le 2 2 (by decide) (by decide) (.int 1)
    (.fraction (1 / 4503599627370496)) (.real 4) (.fraction (1 / 2)) (by norm_num [Quantity.value])
    (by norm_num [Quantity.value]) (by norm_num [Quantity.value]) (by norm_num [Quantity.value])
  refine ⟨h, hok, hh, fun y hy => ?_⟩
  have hle := (hmin y hy).1
  norm_num [Quantity.value] at hle ⊢
  exact hle

end FiniteDifference.Optimal
