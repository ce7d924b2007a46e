import FiniteDifference.Proofs.Derivative.SampledPoints
import FiniteDifference.Proofs.Exact.Arithmetic
import Mathlib.Algebra.BigOperators.Ring.List

/-!
# Exact estimates in one variable

The estimate of a derivative in exact arithmetic is the sum of the products of the coefficients with the
values at all grid points, over a power of the bandwidth.  That the function is not sampled where a
coefficient is zero does not change it.
-/

open FiniteDifference.Action

namespace FiniteDifference

/-- **Estimates.** The estimate of a stencil for a function of one variable. -/
def Stencil.estimate (s : Stencil) (g : ℚ → ℚ) (x h : ℚ) : ℚ :=
  (s.offsets.map fun o => Coefficients.weight s.offsets s.order o * g (x + o * h)).sum / h ^ s.order

/-- The offsets of an estimate, counted from the lowest one. -/
theorem Stencil.estimate_eq_range (s : Stencil) (g : ℚ → ℚ) (x h : ℚ) :
    s.estimate g x h = ((List.range s.length).map fun i : ℕ =>
      Coefficients.weight s.offsets s.order (s.left + i) * g (x + h * (s.left + i))).sum
        / h ^ s.order := by
  rw [estimate]
  conv_lhs => enter [1, 1, 2]; rw [offsets]
  rw [List.map_map]
  congr 3
  funext i
  simp only [Function.comp_apply, Int.cast_add, Int.cast_natCast]
  ring_nf

/-! ## Linearity -/

theorem Stencil.estimate_add (s : Stencil) (f g : ℚ → ℚ) (x h : ℚ) :
    s.estimate (fun y => f y + g y) x h = s.estimate f x h + s.estimate g x h := by
  rw [estimate, estimate, estimate, ← add_div, ← List.sum_map_add]
  simp only [mul_add]

theorem Stencil.estimate_const_mul (s : Stencil) (c : ℚ) (g : ℚ → ℚ) (x h : ℚ) :
    s.estimate (fun y => c * g y) x h = c * s.estimate g x h := by
  rw [estimate, estimate, ← mul_div_assoc, ← List.sum_map_mul_left]
  simp only [mul_left_comm c]

namespace Univariate

/-! ## Samples -/

/-- The samples where the coefficients are not zero are put back in their places. -/
theorem spread_sampled {α : Type} [Scalar α] (g : ℤ → α) {offsets : List ℤ} {exact : List ℚ}
    (hlen : offsets.length = exact.length) :
    spread exact ((((offsets.zip exact).filter fun (_, c) => c ≠ 0).map (·.1)).map g)
      = List.zipWith (fun o c => if c ≠ 0 then g o else Scalar.zero) offsets exact := by
  induction exact generalizing offsets with
  | nil =>
    rw [List.zipWith_nil_right]
    rfl
  | cons c exact ih =>
    cases offsets with
    | nil => simp at hlen
    | cons o offsets =>
      have hrest := ih (Nat.succ.inj hlen)
      rw [List.zip_cons_cons, List.zipWith_cons_cons, List.filter_cons]
      by_cases hc : c = 0
      · -- a zero coefficient takes no sample
        rw [if_neg (by simp [hc]), if_neg (by simp [hc]), hc, spread_zero_cons, hrest]
      · rw [if_pos (by simp [hc]), if_pos (by simp [hc]), List.map_cons, List.map_cons,
          spread_cons_cons hc, hrest]

/-- A sample with the coefficient zero does not count. -/
theorem sum_sampled (w g : ℤ → ℚ) (offsets : List ℤ) :
    (List.zipWith (· * ·) (offsets.map w)
      (List.zipWith (fun o c => if c ≠ 0 then g o else 0) offsets (offsets.map w))).sum
      = (offsets.map fun o => w o * g o).sum := by
  induction offsets with
  | nil => rfl
  | cons o offsets ih =>
    simp only [List.map_cons, List.zipWith_cons_cons, List.sum_cons, ih]
    by_cases ho : w o = 0
    · simp [ho]
    · rw [if_pos ho]

variable [Memory] [FractionalPower]

/-! ## Estimates -/

/-- The outcome of the grid of a stencil. -/
theorem outcome_axis {s : Stencil} (hroom : s.length < Memory.room) {samples : List ℚ}
    (hlen : samples.length = s.length) {h : ℚ} (hh : 0 < h) :
    Evaluation.outcome (.axis s) samples (.real h)
      = .ok ((List.zipWith (· * ·) s.coefficients samples).sum / h ^ s.order) := by
  have hgen : (Descriptor.generated (.axis s) : Except (Fault ℚ) (List ℚ)) = .ok s.coefficients := by
    rw [Descriptor.generated, Coefficients.ofStencil_eq, if_pos hroom]
  have hscale : Evaluation.scale (.descriptor (.axis s)) (.real h) = .ok (h ^ s.order) := by
    show (Validation.requirePositive (.real h) "bandwidth" >>= _) = _
    rw [Exact.requirePositive_real hh]
    rfl
  exact Exact.outcome_eq_ok hgen (by rw [hlen, s.length_coefficients]) hscale (pow_pos hh _).ne'

theorem yields_requirePositive {h : ℚ} (hh : 0 < h) :
    Yields (Action.ofExcept (Validation.requirePositive (.real h) "bandwidth"))
      (.ok (Exact.positive h hh)) [] := by
  rw [Exact.requirePositive_real hh]
  exact Yields.ofExcept _

/-- **Derivatives in one variable.** A function that is sampled with a stencil whose offsets can be listed
gives the estimate of this stencil, from calls where the coefficients are not zero. -/
theorem yields_valueWith (g : ℚ → ℚ) {s : Stencil} (hroom : s.length < Memory.room) (crew : Crew ℚ)
    (x : ℚ) {h : ℚ} (hh : 0 < h) :
    Yields (valueWith (.ofScalar g) s crew (.real x) (.real h)) (.ok (s.estimate g x h))
      ((sampledOffsets s s.coefficients).map (pointAt x h)) := by
  let sample : ℤ → ℚ := fun o => g (x + o * h)
  obtain ⟨workers, hworkers⟩ := Exact.exists_resolve crew.machine crew.request
    (sampledOffsets s s.coefficients).length
  have hvalues := Sampling.yields_values (f := .ofScalar g) (pointAt x h) sample
    (fun o => SampledFunction.yields_call_ofScalar g _) _ hworkers
  have hspread : spread s.coefficients ((sampledOffsets s s.coefficients).map sample)
      = List.zipWith (fun o c => if c ≠ 0 then sample o else 0) s.offsets s.coefficients :=
    spread_sampled sample (by rw [s.length_offsets, s.length_coefficients])
  have hestimate : Evaluation.outcome (.axis s)
      (spread s.coefficients ((sampledOffsets s s.coefficients).map sample)) (.real h)
        = .ok (s.estimate g x h) := by
    rw [outcome_axis hroom (by rw [hspread]; simp) hh, hspread, Stencil.coefficients, sum_sampled]
    rfl
  rw [← hestimate]
  exact yields_valueWith_of_samples (b := Exact.positive h hh) rfl
    (Exact.requirePositive_real hh "bandwidth") hroom hvalues

/-- A stencil whose offsets cannot be listed gives this fault, and the function is not called. -/
theorem yields_valueWith_of_error (f : SampledFunction ℚ) {s : Stencil} {fault : Fault ℚ}
    (hfault : s.listedOffsets = .error fault) (crew : Crew ℚ) (x : ℚ) {h : ℚ} (hh : 0 < h) :
    Yields (valueWith f s crew (.real x) (.real h)) (.error fault) [] :=
  yields_valueWith_of_listing (t := x) (b := Exact.positive h hh) rfl
    (Exact.requirePositive_real hh "bandwidth") f hfault crew

/-- **The outcome in one variable.** The derivative is the estimate of the stencil unless its offsets
cannot be listed. -/
theorem outcome_valueWith (g : ℚ → ℚ) (s : Stencil) (crew : Crew ℚ) (x : ℚ) {h : ℚ} (hh : 0 < h) :
    ∃ calls, Yields (valueWith (.ofScalar g) s crew (.real x) (.real h))
      (s.listedOffsets.map fun _ => s.estimate g x h) calls := by
  cases hlisted : (s.listedOffsets : Except (Fault ℚ) (List ℤ)) with
  | error fault => exact ⟨[], yields_valueWith_of_error _ hlisted crew x hh⟩
  | ok offsets =>
    have hroom := ((s.listedOffsets_eq_ok_iff offsets).mp hlisted).1
    exact ⟨_, yields_valueWith g hroom crew x hh⟩

end Univariate

end FiniteDifference
