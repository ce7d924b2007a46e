import FiniteDifference.Proofs.Coefficients.Solvable
import FiniteDifference.Proofs.Exact.Exactness

/-!
# The coefficient of the leading error

The adaptive strategy estimates the coefficient of the leading error from the derivatives with two
bandwidths.  In exact arithmetic the two derivatives of a polynomial whose degree is at most the sum of
the orders differ by their leading errors alone, so the estimate is the coefficient at this sum times the
leading moment of the stencil, with the other sign.
-/

open FiniteDifference.Action Polynomial

namespace FiniteDifference

/-! ## The leading error of a polynomial -/

/-- **Two estimates.** The estimates for a polynomial with two bandwidths differ by their leading errors, as
the powers of the bandwidths do. -/
theorem Stencil.estimate_sub_estimate (s : Stencil) (horder : 0 < s.order) {p : ℚ[X]}
    (hp : p.natDegree ≤ s.order + s.accuracy) (x : ℚ) {h₁ h₂ : ℚ} (hh₁ : h₁ ≠ 0) (hh₂ : h₂ ≠ 0) :
    s.estimate (fun y => p.eval y) x h₂ - s.estimate (fun y => p.eval y) x h₁
      = -(p.coeff (s.order + s.accuracy)
          * Coefficients.moment s.offsets s.coefficients (s.order + s.accuracy))
        * (h₁ ^ s.accuracy - h₂ ^ s.accuracy) := by
  rw [s.estimate_eval_of_natDegree_le horder hp x hh₁,
    s.estimate_eval_of_natDegree_le horder hp x hh₂]
  ring

/-- The leading error of a polynomial within the bound vanishes exactly below the sum of the orders. -/
theorem Stencil.leadingError_eq_zero_iff (s : Stencil) (horder : 0 < s.order) {p : ℚ[X]}
    (hp : p.natDegree ≤ s.order + s.accuracy) :
    -(p.coeff (s.order + s.accuracy)
        * Coefficients.moment s.offsets s.coefficients (s.order + s.accuracy)) = 0
      ↔ p.natDegree < s.order + s.accuracy := by
  have hmoment := Coefficients.moment_coefficients_ne_zero s horder
  rw [neg_eq_zero, mul_eq_zero, or_iff_left hmoment]
  constructor
  · intro hcoeff
    refine hp.lt_of_ne fun heq => ?_
    -- at the sum itself the coefficient is the leading one of a polynomial that is not constant
    rw [← heq, coeff_natDegree, leadingCoeff_eq_zero] at hcoeff
    rw [hcoeff, natDegree_zero] at heq
    omega
  · exact coeff_eq_zero_of_natDegree_lt

/-! ## The adaptive strategy -/

variable [FractionalPower]

namespace Exact

theorem power_eq (x : ℚ) (k : ℕ) (fault : Fault ℚ) : Evaluation.power x k fault = .ok (x ^ k) := rfl

theorem one_lt_stepRatio (config : AdaptiveConfig ℚ) : 1 < config.stepRatio.val :=
  of_decide_eq_true config.one_lt_stepRatio

/-- A positive number is a checked one, whatever it is called. -/
theorem validation_positive {h : ℚ} (hh : 0 < h) (name : String) :
    Validation.positive h name = .ok (positive h hh) :=
  dif_pos (decide_eq_true hh)

end Exact

namespace Adaptive

variable [Memory]

/-- A derivative with a fixed bandwidth has the outcome of the one with a given bandwidth. -/
theorem yields_derivative {f : SampledFunction ℚ} (hf : f.isCallable = true) (s : Stencil) (x : ℚ)
    {h : ℚ} (hh : 0 < h) {outcome : Except (Fault ℚ) ℚ} {calls : List (Point ℚ)}
    (hvalue : Yields (Univariate.valueWith f s Crew.single (.real x) (.real h)) outcome calls) :
    Yields (derivative f (.descriptor (.axis s)) (.real x) h) outcome calls := by
  have hfunction : Univariate.requireFunction f = .ok () := if_pos hf
  rw [derivative, Exact.validation_positive hh, hfunction]
  refine Yields.silent_bind (b := Exact.positive h hh) (Yields.ofExcept _) ?_
  refine Yields.silent_bind (b := s) (Yields.ofExcept _) ?_
  refine Yields.silent_bind (b := ()) (Yields.ofExcept _) ?_
  refine Yields.silent_bind (b := x) (Yields.ofExcept _) ?_
  refine Yields.silent_bind (b := Argument.real h) (Yields.pure _) ?_
  refine Yields.silent_bind (Univariate.yields_requirePositive hh) ?_
  exact Yields.silent_bind (b := ()) (Yields.note _) hvalue

/-- **Derivatives with a fixed bandwidth.** They are the estimates of the stencil unless its offsets cannot
be listed. -/
theorem outcome_derivative (g : ℚ → ℚ) (s : Stencil) (x : ℚ) {h : ℚ} (hh : 0 < h) :
    ∃ calls, Yields (derivative (.ofScalar g) (.descriptor (.axis s)) (.real x) h)
      (s.listedOffsets.map fun _ => s.estimate g x h) calls := by
  obtain ⟨calls, hvalue⟩ := Univariate.outcome_valueWith g s Crew.single x hh
  exact ⟨calls, yields_derivative rfl s x hh hvalue⟩

/-- **Truncation coefficients.** For a polynomial within the bound the estimate is its leading coefficient
times the leading moment, with the other sign, unless the offsets of the stencil cannot be listed. -/
theorem outcome_truncationCoefficient (config : AdaptiveConfig ℚ) {s : Stencil} (horder : 0 < s.order)
    {p : ℚ[X]} (hp : p.natDegree ≤ s.order + s.accuracy) (x : ℚ) {h : ℚ} (hh : 0 < h) :
    ∃ calls, Yields (truncationCoefficient config (.ofScalar fun y => p.eval y)
        (.descriptor (.axis s)) (.real x) (.real h))
      (s.listedOffsets.map fun _ => -(p.coeff (s.order + s.accuracy)
        * Coefficients.moment s.offsets s.coefficients (s.order + s.accuracy))) calls := by
  have hratio := Exact.one_lt_stepRatio config
  have hgreater : h < h * config.stepRatio.val := lt_mul_of_one_lt_right hh hratio
  have hpowers : (h * config.stepRatio.val) ^ s.accuracy - h ^ s.accuracy ≠ 0 := by
    have hlt : h ^ s.accuracy < (h * config.stepRatio.val) ^ s.accuracy :=
      pow_lt_pow_left₀ hgreater hh.le (s.accuracy_pos horder).ne'
    exact (sub_pos.mpr hlt).ne'
  obtain ⟨calls₁, hfirst⟩ := outcome_derivative (fun y => p.eval y) s x (hh.trans hgreater)
  obtain ⟨calls₂, hsecond⟩ := outcome_derivative (fun y => p.eval y) s x hh
  rw [truncationCoefficient, Exact.requirePositive_real hh]
  cases hlisted : (s.listedOffsets : Except (Fault ℚ) (List ℤ)) with
  | error fault =>
    -- the first of the two derivatives has the fault of the listing
    rw [hlisted] at hfirst
    exact ⟨calls₁, Yields.silent_bind (b := Exact.positive h hh) (Yields.ofExcept _)
      (Yields.bind_error hfirst)⟩
  | ok offsets =>
    rw [hlisted] at hfirst hsecond
    refine ⟨calls₁ ++ calls₂, ?_⟩
    refine Yields.silent_bind (b := Exact.positive h hh) (Yields.ofExcept _) ?_
    refine Yields.bind hfirst (Yields.bind_silent hsecond ?_)
    refine Yields.silent_bind (b := s) (Yields.ofExcept _) ?_
    rw [Exact.power_eq, Exact.power_eq]
    refine Yields.silent_bind (b := (h * config.stepRatio.val) ^ s.accuracy) (Yields.ofExcept _) ?_
    refine Yields.silent_bind (b := h ^ s.accuracy) (Yields.ofExcept _) ?_
    show Yields (Action.ofExcept (Evaluation.quotient
      (s.estimate (fun y => p.eval y) x h
        - s.estimate (fun y => p.eval y) x (h * config.stepRatio.val))
      ((h * config.stepRatio.val) ^ s.accuracy - h ^ s.accuracy))) _ _
    rw [Exact.quotient_eq _ hpowers,
      s.estimate_sub_estimate horder hp x (hh.trans hgreater).ne' hh.ne',
      mul_div_cancel_right₀ _ hpowers]
    exact Yields.ofExcept _

/-- **Exactness of the truncation coefficient.** After any history, for every adaptive strategy, every point
and every trial bandwidth: the estimate for a polynomial whose degree is at most the sum of the orders is
its coefficient at this sum times the leading moment, with the other sign, unless the offsets of the
stencil cannot be listed.  It vanishes exactly for the polynomials of a lower degree. -/
theorem truncationCoefficient_eq_leadingMoment (history : List (Operation ℚ)) (epsilon : Positive ℚ)
    (given : Option (Positive ℚ)) (config : AdaptiveConfig ℚ) (s : Stencil) (f : ℚ[X]) (x h : ℚ)
    (horder : 0 < s.order) (hdegree : f.natDegree ≤ s.order + s.accuracy) (hh : 0 < h) :
    (((GivenStrategy.axis (.adaptive epsilon given config)).truncationCoefficient
        (.ofScalar fun y => f.eval y) (.descriptor (.axis s)) (.real x) (.real h)).perform
        (Session.after history)).1
      = s.listedOffsets.map (fun _ => -(f.coeff (s.order + s.accuracy)
          * Coefficients.moment s.offsets s.coefficients (s.order + s.accuracy))) ∧
    (-(f.coeff (s.order + s.accuracy)
          * Coefficients.moment s.offsets s.coefficients (s.order + s.accuracy)) = 0
      ↔ f.natDegree < s.order + s.accuracy) := by
  obtain ⟨calls, hyields⟩ := outcome_truncationCoefficient config horder hdegree x hh
  exact ⟨hyields.outcome_after history, s.leadingError_eq_zero_iff horder hdegree⟩

/-- The constants of the adaptive strategy that stand where none are given. -/
def doubling : AdaptiveConfig ℚ :=
  ⟨Exact.positive 2 two_pos, Exact.positive 2 two_pos, decide_eq_true one_lt_two,
    AdaptiveConfig.default, AdaptiveConfig.default⟩

omit [Memory] [FractionalPower] in
/-- The estimate for a cube and the central first derivative on three points, whose leading moment is
one. -/
theorem truncationCoefficient_cube :
    letI : Memory := .ample
    letI : FractionalPower := ⟨fun _ _ => 0⟩
    (((GivenStrategy.axis (.adaptive Exact.unit none doubling)).truncationCoefficient
        (.ofScalar fun y => (X ^ 3 : ℚ[X]).eval y) (.descriptor (.axis .threePointCentral)) (.real 5)
        (.real (1 / 2))).perform (Session.after [])).1 = .ok (-1) := by
  let : Memory := .ample
  let : FractionalPower := ⟨fun _ _ => 0⟩
  have hmoment : Coefficients.moment Stencil.threePointCentral.offsets
      Stencil.threePointCentral.coefficients 3 = 1 := by decide +kernel
  have hcube := (truncationCoefficient_eq_leadingMoment [] Exact.unit none doubling
    .threePointCentral (X ^ 3) 5 (1 / 2) (by decide) (by rw [natDegree_X_pow]; decide)
    (by norm_num)).1
  refine hcube.trans (congrArg Except.ok ?_)
  show -((X ^ 3 : ℚ[X]).coeff 3 * Coefficients.moment Stencil.threePointCentral.offsets
    Stencil.threePointCentral.coefficients 3) = -1
  rw [hmoment, coeff_X_pow_self, one_mul]

omit [Memory] [FractionalPower] in
/-- Without a bound on the number of grid points there is no estimate: on a grid that cannot be listed not
even the zero function has one. -/
theorem not_estimated_on_uncountedForward :
    letI : Memory := .ample
    letI : FractionalPower := ⟨fun _ _ => 0⟩
    ¬∀ (epsilon : Positive ℚ) (given : Option (Positive ℚ)) (config : AdaptiveConfig ℚ) (s : Stencil)
        (f : ℚ[X]) (x h : ℚ), 0 < s.order → f.natDegree ≤ s.order + s.accuracy → 0 < h →
      (((GivenStrategy.axis (.adaptive epsilon given config)).truncationCoefficient
          (.ofScalar fun y => f.eval y) (.descriptor (.axis s)) (.real x) (.real h)).perform
          Session.empty).1
        = .ok (-(f.coeff (s.order + s.accuracy)
            * Coefficients.moment s.offsets s.coefficients (s.order + s.accuracy))) := by
  let : Memory := .ample
  let : FractionalPower := ⟨fun _ _ => 0⟩
  intro hexact
  have hok := hexact Exact.unit (some Exact.unit) doubling
    .uncountedForward 0 0 1 (by decide) (by simp) one_pos
  obtain ⟨calls, hyields⟩ := outcome_truncationCoefficient doubling (s := .uncountedForward) (by decide)
    (p := 0) (by simp) 0 one_pos
  rw [Stencil.listedOffsets_of_uncounted Stencil.not_counted_uncountedForward] at hyields
  have hfault := hok.symm.trans (hyields.outcome_after [])
  cases hfault

end Adaptive

end FiniteDifference
