import FiniteDifference.Proofs.Cache.Transparency
import FiniteDifference.Proofs.Coefficients.TruncationOrder
import FiniteDifference.Proofs.Exact.MixedPartial
import FiniteDifference.Proofs.Exact.Multivariate
import Mathlib.Algebra.Polynomial.Taylor

/-!
# Polynomial exactness

A stencil gives the derivative of every polynomial whose degree is below the sum of its two orders.
-/

namespace FiniteDifference

open Polynomial

namespace Coefficients

/-- **Selection by stencils.** Up to the sum of the orders the weighted sum over the grid of a stencil sees
two coefficients only, the one at the order and, with the leading moment, the one at the sum.  The moments
at the other powers vanish. -/
theorem weightedSum_of_natDegree_le (s : Stencil) (horder : 0 < s.order) {p : ℚ[X]}
    (hp : p.natDegree ≤ s.order + s.accuracy) :
    weightedSum s.offsets s.order p
      = s.order.factorial * p.coeff s.order
        + p.coeff (s.order + s.accuracy)
          * moment s.offsets s.coefficients (s.order + s.accuracy) := by
  have hmoment : ∀ k, weightedSum s.offsets s.order (X ^ k) = moment s.offsets s.coefficients k :=
    fun k => (moment_coefficients s k).symm
  have haccuracy := s.accuracy_pos horder
  have hselected : ∑ k ∈ Finset.range (s.order + s.accuracy),
      p.coeff k * weightedSum s.offsets s.order (X ^ k) = s.order.factorial * p.coeff s.order := by
    rw [Finset.sum_eq_single_of_mem s.order (Finset.mem_range.mpr (by omega)), hmoment,
      moment_coefficients_of_lt s s.order_lt_length, if_pos rfl, mul_comm]
    intro k hk hne
    rw [hmoment, moment_coefficients_eq_zero s (Finset.mem_range.mp hk) hne, mul_zero]
  rw [weightedSum_eq_sum,
    sum_over_range' p (fun k => zero_mul (weightedSum s.offsets s.order (X ^ k)))
      (s.order + s.accuracy + 1) (by omega),
    Finset.sum_range_succ, hselected, hmoment]

end Coefficients

/-! ## One variable -/

namespace Stencil

/-- **The leading error.** The estimate for a polynomial of degree at most the sum of the orders is its
derivative and an error, the coefficient at this sum times the leading moment and a power of the
bandwidth. -/
theorem estimate_eval_of_natDegree_le (s : Stencil) (horder : 0 < s.order) {p : ℚ[X]}
    (hp : p.natDegree ≤ s.order + s.accuracy) (x : ℚ) {h : ℚ} (hh : h ≠ 0) :
    s.estimate (fun y => p.eval y) x h
      = (derivative^[s.order] p).eval x
        + p.coeff (s.order + s.accuracy)
          * Coefficients.moment s.offsets s.coefficients (s.order + s.accuracy) * h ^ s.accuracy := by
  -- around the point and in units of the bandwidth the values are those of a polynomial at the offsets
  have hvalue : ∀ o : ℤ, p.eval (x + o * h) = ((taylor x p).comp (C h * X)).eval (o : ℚ) := by
    intro o
    rw [eval_comp, eval_mul, eval_C, eval_X, taylor_eval]
    ring_nf
  have hdegree : ((taylor x p).comp (C h * X)).natDegree ≤ s.order + s.accuracy := by
    rw [natDegree_comp, natDegree_C_mul_X h hh, mul_one, natDegree_taylor]
    exact hp
  have hselected : (s.order.factorial : ℚ) * (taylor x p).coeff s.order
      = (derivative^[s.order] p).eval x := by
    rw [taylor_coeff, ← factorial_smul_hasseDeriv]
    simp
  -- moving the point leaves the leading coefficient as it is
  have hleading : (taylor x p).coeff (s.order + s.accuracy) = p.coeff (s.order + s.accuracy) := by
    rcases hp.lt_or_eq with hlt | heq
    · rw [coeff_eq_zero_of_natDegree_lt (by rwa [natDegree_taylor]), coeff_eq_zero_of_natDegree_lt hlt]
    · rw [← heq]
      exact coeff_taylor_natDegree x p
  have hsum : (s.offsets.map fun o => Coefficients.weight s.offsets s.order o * p.eval (x + o * h)).sum
      = Coefficients.weightedSum s.offsets s.order ((taylor x p).comp (C h * X)) := by
    simp only [hvalue]
    rfl
  rw [estimate, hsum, Coefficients.weightedSum_of_natDegree_le s horder hdegree, comp_C_mul_X_coeff,
    comp_C_mul_X_coeff, ← mul_assoc, hselected, hleading, pow_add]
  field_simp

/-- **Exactness in one variable.** The estimate for a polynomial of degree below the sum of the orders is
its derivative. -/
theorem estimate_eval (s : Stencil) {p : ℚ[X]} (hp : p.natDegree < s.order + s.accuracy) (x : ℚ)
    {h : ℚ} (hh : h ≠ 0) :
    s.estimate (fun y => p.eval y) x h = (derivative^[s.order] p).eval x := by
  have horder : 0 < s.order := by
    have hzero := s.accuracy_eq_zero
    omega
  rw [s.estimate_eval_of_natDegree_le horder hp.le x hh, coeff_eq_zero_of_natDegree_lt hp, zero_mul,
    zero_mul, add_zero]

theorem estimate_of_order_eq_zero (s : Stencil) (h0 : s.order = 0) (g : ℚ → ℚ) (x h : ℚ) :
    s.estimate g x h = g x := by
  rw [estimate, s.offsets_of_order_eq_zero h0, h0]
  simp [Coefficients.weight, Coefficients.withRoots, Coefficients.separation, Coefficients.factorial]

/-- The estimate for a power within the bound of the degree. -/
theorem estimate_pow (s : Stencil) {k : ℕ} (hk : 0 < s.order → k < s.order + s.accuracy) (x : ℚ)
    {h : ℚ} (hh : h ≠ 0) :
    s.estimate (fun y => y ^ k) x h = k.descFactorial s.order * x ^ (k - s.order) := by
  by_cases h0 : s.order = 0
  · rw [s.estimate_of_order_eq_zero h0, h0, Nat.descFactorial_zero, Nat.cast_one, one_mul, Nat.sub_zero]
  · have hdegree : (X ^ k : ℚ[X]).natDegree < s.order + s.accuracy := by
      rw [natDegree_X_pow]
      exact hk (by omega)
    have hexact := s.estimate_eval hdegree x hh
    rw [iterate_derivative_X_pow_eq_natCast_mul] at hexact
    simpa using hexact

end Stencil

/-! ## Several variables -/

/-- **Exactness for monomials.** The nested estimate for a product of powers is the product of the estimates
along the axes, by induction on the axes. -/
theorem nestedEstimate_prod_pow (axes : List Stencil) (x h : Fin axes.length → ℚ)
    (e : Fin axes.length → ℕ) (hh : ∀ a, h a ≠ 0)
    (he : ∀ a, 0 < (axes.get a).order → e a < (axes.get a).order + (axes.get a).accuracy) :
    nestedEstimate axes (List.ofFn x) (List.ofFn h)
        (fun ys => ∏ a : Fin axes.length, ys.getD a 0 ^ e a)
      = ∏ a, ((e a).descFactorial (axes.get a).order : ℚ) * x a ^ (e a - (axes.get a).order) := by
  induction axes with
  | nil => rfl
  | cons s axes ih =>
    have hrest := ih (fun a => x a.succ) (fun a => h a.succ) (fun a => e a.succ)
      (fun a => hh a.succ) (fun a => he a.succ)
    -- the power of the first coordinate is a constant factor for the later axes
    have hsplit : ∀ (y : ℚ) (ys : List ℚ),
        ∏ a : Fin (axes.length + 1), (y :: ys).getD a 0 ^ e a
          = y ^ e 0 * ∏ a : Fin axes.length, ys.getD a 0 ^ e a.succ := by
      intro y ys
      rw [Fin.prod_univ_succ]
      rfl
    have hfirst := s.estimate_pow (k := e 0) (he 0) (x 0) (hh 0)
    show nestedEstimate (s :: axes) (List.ofFn x) (List.ofFn h)
      (fun ys => ∏ a : Fin (axes.length + 1), ys.getD a 0 ^ e a) = _
    rw [List.ofFn_succ, List.ofFn_succ, nestedEstimate]
    simp only [hsplit, nestedEstimate_const_mul, hrest]
    simp only [mul_comm (_ ^ e 0)]
    rw [Stencil.estimate_const_mul, hfirst, mul_comm]
    exact (Fin.prod_univ_succ fun a : Fin (axes.length + 1) =>
      ((e a).descFactorial ((s :: axes).get a).order : ℚ) * x a ^ (e a - ((s :: axes).get a).order)).symm

/-- Nested estimates of sums. -/
theorem nestedEstimate_sum {ι : Type*} (axes : List Stencil) (xs hs : List ℚ) (support : Finset ι)
    (f : ι → List ℚ → ℚ) :
    nestedEstimate axes xs hs (fun ys => ∑ i ∈ support, f i ys)
      = ∑ i ∈ support, nestedEstimate axes xs hs (f i) := by
  let estimate : (List ℚ → ℚ) →+ ℚ :=
    AddMonoidHom.mk' (nestedEstimate axes xs hs) (nestedEstimate_add axes xs hs)
  have hsum : (fun ys => ∑ i ∈ support, f i ys) = ∑ i ∈ support, f i :=
    funext fun ys => (Finset.sum_apply ys support f).symm
  rw [hsum]
  exact map_sum estimate f support

/-- The stencil along an axis. -/
def Tensor.axisOf (t : Tensor) (a : Fin t.dimension) : Stencil := t.axes.get a

/-- The values of a polynomial at lists of coordinates. -/
noncomputable def evalAt {n : ℕ} (f : MvPolynomial (Fin n) ℚ) (xs : List ℚ) : ℚ :=
  MvPolynomial.eval (fun a : Fin n => xs.getD a 0) f

/-- **Exactness in several variables.** The nested estimate for a polynomial whose degree along each axis
with a derivative is below the sum of the orders is its mixed partial derivative. -/
theorem Tensor.nestedEstimate_evalAt (t : Tensor) (f : MvPolynomial (Fin t.dimension) ℚ)
    (x h : Fin t.dimension → ℚ) (hh : ∀ a, h a ≠ 0)
    (hf : ∀ a, 0 < (t.axisOf a).order →
      f.degreeOf a < (t.axisOf a).order + (t.axisOf a).accuracy) :
    nestedEstimate t.axes (List.ofFn x) (List.ofFn h) (evalAt f)
      = MvPolynomial.eval x (mixedPartial (fun a => (t.axisOf a).order) f) := by
  have hsplit : evalAt f = fun ys => ∑ d ∈ f.support, f.coeff d *
      ∏ a : Fin t.dimension, ys.getD a 0 ^ d a := funext fun ys => MvPolynomial.eval_eq' _ f
  rw [hsplit, nestedEstimate_sum, eval_mixedPartial]
  refine Finset.sum_congr rfl fun d hd => ?_
  rw [nestedEstimate_const_mul]
  exact congrArg (f.coeff d * ·) (nestedEstimate_prod_pow t.axes x h d hh fun a ha =>
    (MvPolynomial.monomial_le_degreeOf a hd).trans_lt (hf a ha))

/-! ## Evaluators -/

/-- **Polynomial exactness.** After any history, with a given bandwidth: an evaluator for several variables
gives the mixed partial derivative of every polynomial whose degree along each axis with a derivative is
below the sum of the orders, unless there are too many grid points or there is no room for the grid of an
axis; an evaluator for one variable gives the derivative of every polynomial whose degree is below the sum
of the orders, unless its offsets cannot be listed; and without a derivative it gives the value of every
function. -/
theorem valueWithBandwidth_eq_derivative [Memory] [FractionalPower] (history : List (Operation ℚ)) :
    (∀ (t : Tensor) (strategy : VectorStrategy ℚ) (crew : Crew ℚ)
        (f : MvPolynomial (Fin t.dimension) ℚ) (x h : Fin t.dimension → ℚ), (∀ a, 0 < h a) →
      (∀ a, 0 < (t.axisOf a).order →
        f.degreeOf a ≤ (t.axisOf a).order + (t.axisOf a).accuracy - 1) →
      ((MultivariateEvaluator.valueWithBandwidth ⟨.ofVector (evalAt f), t, strategy, crew⟩
          (Argument.ofReals (List.ofFn x)) (Argument.ofReals (List.ofFn h))).perform
          (Session.after history)).1 =
        if t.size < RowMajor.sizeBound then
          if ∀ s ∈ t.axes, s.length < Memory.room then
            .ok (MvPolynomial.eval x (mixedPartial (fun a => (t.axisOf a).order) f))
          else .error .noRoom
        else .error (.tooLarge .size)) ∧
    (∀ (s : Stencil) (strategy : AxisStrategy ℚ) (crew : Crew ℚ) (f : ℚ[X]) (x h : ℚ), 0 < h →
      0 < s.order → f.natDegree ≤ s.order + s.accuracy - 1 →
      ((UnivariateEvaluator.valueWithBandwidth ⟨.ofScalar fun y => f.eval y, s, strategy, crew⟩
          (.real x) (.real h)).perform (Session.after history)).1 =
        s.listedOffsets.map fun _ => (derivative^[s.order] f).eval x) ∧
    (∀ (s : Stencil) (strategy : AxisStrategy ℚ) (crew : Crew ℚ) (g : ℚ → ℚ) (x h : ℚ), 0 < h →
      s.order = 0 →
      ((UnivariateEvaluator.valueWithBandwidth ⟨.ofScalar g, s, strategy, crew⟩
          (.real x) (.real h)).perform (Session.after history)).1 = .ok (g x)) := by
  refine ⟨fun t strategy crew f x h hpos hf => ?_, fun s strategy crew f x h hpos horder hf => ?_,
    fun s strategy crew g x h hpos horder => ?_⟩
  · have hlist : ∀ b ∈ List.ofFn h, 0 < b := by
      intro b hb
      obtain ⟨a, rfl⟩ := (List.mem_ofFn' h b).mp hb
      exact hpos a
    obtain ⟨calls, hyields⟩ := Multivariate.outcome_valueWith (evalAt f) t crew
      (List.length_ofFn (f := x)) (List.length_ofFn (f := h)) hlist
    rw [t.nestedEstimate_evalAt f x h (fun a => (hpos a).ne') fun a ha => by
      have hdegree := hf a ha
      omega] at hyields
    exact hyields.outcome_after history
  · obtain ⟨calls, hyields⟩ := Univariate.outcome_valueWith (fun y => f.eval y) s crew x hpos
    rw [s.estimate_eval (by omega) x hpos.ne'] at hyields
    exact hyields.outcome_after history
  · have hroom : s.length < Memory.room := by
      rw [s.length_of_order_eq_zero horder]
      exact Memory.one_lt_room
    have hyields := Univariate.yields_valueWith g hroom crew x hpos
    rw [s.estimate_of_order_eq_zero horder] at hyields
    exact hyields.outcome_after history

/-- The tensor stencil with a central stencil along one axis and a forward one along the other. -/
def centralForward : Tensor :=
  ⟨[.threePointCentral, .twoPointForward], List.cons_ne_nil _ _⟩

/-- The derivatives of a product of two powers, of a cube, and of a function that has none. -/
theorem valueWithBandwidth_square_mul :
    letI : Memory := .ample
    letI : FractionalPower := ⟨fun _ _ => 0⟩
    ((MultivariateEvaluator.valueWithBandwidth
        ⟨.ofVector (evalAt (MvPolynomial.X 0 ^ 2 * MvPolynomial.X 1 : MvPolynomial (Fin 2) ℚ)),
          centralForward, .fixed [], Crew.single⟩
        (Argument.ofReals (List.ofFn ![3, 5]))
        (Argument.ofReals (List.ofFn ![1 / 2, 1 / 4]))).perform (Session.after [])).1 = .ok 6 ∧
    ((UnivariateEvaluator.valueWithBandwidth
        ⟨.ofScalar fun y => (X ^ 3 : ℚ[X]).eval y, .threePointCentralSecond,
          .foreign (Foreign.constant "" "" .absent), Crew.single⟩
        (.real 2) (.real (1 / 2))).perform (Session.after [])).1 = .ok 12 ∧
    ((UnivariateEvaluator.valueWithBandwidth
        ⟨.ofScalar fun y : ℚ => if y < 0 then -1 else 1, .value,
          .foreign (Foreign.constant "" "" .absent), Crew.single⟩
        (.real (-2)) (.real (1 / 2))).perform (Session.after [])).1 = .ok (-1) := by
  let : Memory := .ample
  let : FractionalPower := ⟨fun _ _ => 0⟩
  obtain ⟨hseveral, hone, hvalue⟩ := valueWithBandwidth_eq_derivative []
  refine ⟨?_, ?_, ?_⟩
  · -- the degrees are two and one, just below the sums of the orders along the two axes
    have hdegree : ∀ a : Fin 2, (MvPolynomial.X 0 ^ 2 * MvPolynomial.X 1 :
        MvPolynomial (Fin 2) ℚ).degreeOf a ≤ 2 - a := by
      intro a
      refine (MvPolynomial.degreeOf_mul_le a _ _).trans ?_
      have hpow := MvPolynomial.degreeOf_pow_le a (MvPolynomial.X 0 : MvPolynomial (Fin 2) ℚ) 2
      rw [MvPolynomial.degreeOf_X] at hpow ⊢
      fin_cases a
      · simp
      · simpa using hpow
    have hrun := hseveral centralForward (.fixed []) Crew.single
      (MvPolynomial.X 0 ^ 2 * MvPolynomial.X 1 : MvPolynomial (Fin 2) ℚ) ![3, 5] ![1 / 2, 1 / 4]
      (fun a : Fin 2 => by fin_cases a <;> norm_num)
      (fun (a : Fin 2) _ => (hdegree a).trans (by fin_cases a <;> decide))
    have hroom : ∀ s ∈ centralForward.axes, s.length < Memory.ample.room := by decide
    rw [if_pos (by decide), if_pos hroom] at hrun
    refine hrun.trans (congrArg Except.ok ?_)
    show MvPolynomial.eval ![3, 5] (MvPolynomial.pderiv 0 (MvPolynomial.pderiv 1
      (MvPolynomial.X 0 ^ 2 * MvPolynomial.X 1))) = 6
    simp only [Derivation.leibniz, MvPolynomial.pderiv_pow, MvPolynomial.pderiv_X]
    norm_num
  · rw [hone _ _ _ _ _ _ (by norm_num) (by decide) (by rw [natDegree_X_pow]; decide)]
    show Except.ok (eval 2 (derivative (derivative (X ^ 3)))) = _
    norm_num
  · rw [hvalue _ _ _ _ _ _ (by norm_num) rfl]
    norm_num

/-- The tensor stencil with the two-point stencil along each of 64 axes. -/
def sixtyFourAxes : Tensor := ⟨List.replicate 64 .twoPointForward, by decide⟩

/-- Without a bound on the number of grid points there is no exactness: the derivative of a constant is not
found along 64 axes with two points each. -/
theorem not_exact_along_sixtyFourAxes :
    letI : Memory := .ample
    letI : FractionalPower := ⟨fun _ _ => 0⟩
    ¬∀ (t : Tensor) (strategy : VectorStrategy ℚ) (crew : Crew ℚ)
        (f : MvPolynomial (Fin t.dimension) ℚ) (x h : Fin t.dimension → ℚ), (∀ a, 0 < h a) →
      (∀ a, 0 < (t.axisOf a).order →
        f.degreeOf a ≤ (t.axisOf a).order + (t.axisOf a).accuracy - 1) →
      ((MultivariateEvaluator.valueWithBandwidth ⟨.ofVector (evalAt f), t, strategy, crew⟩
          (Argument.ofReals (List.ofFn x)) (Argument.ofReals (List.ofFn h))).perform
          Session.empty).1 =
        .ok (MvPolynomial.eval x (mixedPartial (fun a => (t.axisOf a).order) f)) := by
  let : Memory := .ample
  let : FractionalPower := ⟨fun _ _ => 0⟩
  intro hexact
  have hok := hexact sixtyFourAxes (.fixed []) Crew.single 1 (fun _ => 0) (fun _ => 1)
    (fun _ => one_pos) (fun a _ => by simp)
  have hyields := Multivariate.yields_valueWith_of_tooLarge
    (.ofVector (evalAt (1 : MvPolynomial (Fin sixtyFourAxes.dimension) ℚ))) (t := sixtyFourAxes)
    (by decide +kernel) Crew.single
    (List.length_ofFn (f := fun _ : Fin sixtyFourAxes.dimension => (0 : ℚ)))
    (List.length_ofFn (f := fun _ : Fin sixtyFourAxes.dimension => (1 : ℚ))) (by simp)
  have hfault := hok.symm.trans (hyields.outcome_after [])
  cases hfault

end FiniteDifference
