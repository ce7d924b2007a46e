import FiniteDifference.Proofs.Cache.Transparency
import FiniteDifference.Proofs.Coefficients.Moments
import FiniteDifference.Proofs.Coefficients.Solvable
import FiniteDifference.Proofs.Coefficients.ZeroPattern
import FiniteDifference.Proofs.Evaluation.Outcome
import FiniteDifference.Proofs.Sampling.Single

/-!
# Sampled points

A function of one variable is sampled at the offsets of a stencil whose coefficients are not zero, in
increasing order.  By the zero pattern of the coefficients these are all offsets, except zero for the
central stencils of odd order.
-/

open FiniteDifference.Action

namespace FiniteDifference

/-! ## Sampled offsets -/

namespace Stencil

theorem pairwise_lt_offsets (s : Stencil) : s.offsets.Pairwise (· < ·) := by
  rw [offsets, List.pairwise_map]
  refine List.pairwise_lt_range.imp ?_
  intro i j hij
  omega

/-- Some coefficient of a stencil is not zero, since a moment is not. -/
theorem exists_weight_ne_zero (s : Stencil) :
    ∃ o ∈ s.offsets, Coefficients.weight s.offsets s.order o ≠ 0 := by
  by_contra hall
  push Not at hall
  have hzero : Coefficients.weightedSum s.offsets s.order (Polynomial.X ^ s.order) = 0 := by
    refine List.sum_eq_zero fun y hy => ?_
    obtain ⟨o, ho, rfl⟩ := List.mem_map.mp hy
    rw [hall o ho, zero_mul]
  have hmoment := Coefficients.moment_coefficients_of_lt s s.order_lt_length
  rw [Coefficients.moment_coefficients, hzero, if_pos rfl] at hmoment
  exact s.order.factorial_ne_zero (by exact_mod_cast hmoment.symm)

/-- The coefficients of a stencil vanish at zero, for central stencils of odd order, and nowhere else. -/
theorem forall₂_coefficients (s : Stencil) :
    List.Forall₂ (fun o c => c = 0 ↔ s.placement = .central ∧ s.order % 2 = 1 ∧ o = 0)
      s.offsets s.coefficients := by
  rw [coefficients, List.forall₂_map_right_iff, List.forall₂_same]
  intro o ho
  exact Coefficients.weight_eq_zero_iff_central s ho

end Stencil

namespace Univariate

/-- The sampled offsets are those with a nonzero coefficient. -/
theorem sampledOffsets_coefficients (s : Stencil) :
    sampledOffsets s s.coefficients
      = s.offsets.filter fun o => Coefficients.weight s.offsets s.order o ≠ 0 := by
  have hzip : ∀ (w : ℤ → ℚ) (grid : List ℤ),
      ((grid.zip (grid.map w)).filter fun entry => entry.2 ≠ 0).map (·.1)
        = grid.filter fun o => w o ≠ 0 := by
    intro w grid
    induction grid with
    | nil => rfl
    | cons o grid ih =>
      rw [List.map_cons, List.zip_cons_cons, List.filter_cons, List.filter_cons, ← ih]
      dsimp only
      split
      · rfl
      · rfl
  exact hzip _ s.offsets

theorem sampledOffsets_ne_nil (s : Stencil) : sampledOffsets s s.coefficients ≠ [] := by
  obtain ⟨o, ho, hweight⟩ := s.exists_weight_ne_zero
  rw [sampledOffsets_coefficients]
  exact List.ne_nil_of_mem (List.mem_filter.mpr ⟨ho, decide_eq_true hweight⟩)

/-- The sampled offsets are all offsets, except zero for central stencils of odd order. -/
theorem sampledOffsets_eq_filter (s : Stencil) :
    sampledOffsets s s.coefficients
      = s.offsets.filter fun o => ¬(s.placement = .central ∧ s.order % 2 = 1 ∧ o = 0) := by
  rw [sampledOffsets_coefficients]
  refine List.filter_congr fun o ho => ?_
  exact decide_eq_decide.mpr (not_congr (Coefficients.weight_eq_zero_iff_central s ho))

end Univariate

variable {α : Type} [Scalar α]

/-! ## Samples in their places -/

namespace Univariate

theorem spread_zero_cons (exact : List ℚ) (samples : List α) :
    spread (0 :: exact) samples = Scalar.zero :: spread exact samples := by
  rw [spread.eq_def]
  exact if_neg (not_not_intro rfl)

theorem spread_cons_cons {c : ℚ} (hc : c ≠ 0) (exact : List ℚ) (y : α) (samples : List α) :
    spread (c :: exact) (y :: samples) = y :: spread exact samples := by
  rw [spread.eq_def]
  exact if_pos hc

theorem spread_cons_nil {c : ℚ} (hc : c ≠ 0) (exact : List ℚ) :
    spread (c :: exact) ([] : List α) = Scalar.zero :: spread exact [] := by
  rw [spread.eq_def]
  exact if_pos hc

/-- There is an entry for each coefficient. -/
theorem length_spread (exact : List ℚ) (samples : List α) :
    (spread exact samples).length = exact.length := by
  induction exact generalizing samples with
  | nil => rfl
  | cons c exact ih =>
    by_cases hc : c = 0
    · rw [hc, spread_zero_cons, List.length_cons, List.length_cons, ih]
    · cases samples with
      | nil => rw [spread_cons_nil hc, List.length_cons, List.length_cons, ih]
      | cons y samples => rw [spread_cons_cons hc, List.length_cons, List.length_cons, ih]

end Univariate

/-! ## Calls -/

namespace Univariate

variable [Memory] {x h : Argument α} {t : α} {b : Positive α} (hx : x.toScalar = .ok t)
  (hh : Validation.requirePositive h "bandwidth" = .ok b)
include hx hh

/-- **Samples of a derivative.** A derivative whose function is sampled where the coefficients are not zero
has the outcome of the grid of these samples, unless sampling fails. -/
theorem yields_valueWith_of_samples {f : SampledFunction α} {s : Stencil}
    (hroom : s.length < Memory.room) {crew : Crew α} {outcome : Except (Fault α) (List α)}
    {calls : List (Point α)}
    (hvalues : Yields (Sampling.values crew f
      ((sampledOffsets s s.coefficients).map (pointAt t b.val))) outcome calls) :
    Yields (valueWith f s crew x h)
      (outcome >>= fun samples =>
        Evaluation.outcome (.axis s) (spread s.coefficients samples) (.real b.val)) calls := by
  have hlookup := Cache.yields_exactStencil (α := α) s
  rw [Coefficients.ofStencil_eq, if_pos hroom] at hlookup
  rw [valueWith, hx, hh]
  refine Yields.silent_bind (b := t) (Yields.ofExcept _) ?_
  refine Yields.silent_bind (b := b) (Yields.ofExcept _) (Yields.silent_bind hlookup ?_)
  cases outcome with
  | error fault => exact Yields.bind_error hvalues
  | ok samples =>
    have hgrid := Evaluation.yields_grid (.axis s) (spread s.coefficients samples) (.real b.val)
    exact Yields.bind_silent hvalues hgrid

/-- A stencil whose offsets cannot be listed gives this fault, and the function is not called. -/
theorem yields_valueWith_of_listing (f : SampledFunction α) {s : Stencil} {fault : Fault α}
    (hfault : s.listedOffsets = .error fault) (crew : Crew α) :
    Yields (valueWith f s crew x h) (.error fault) [] := by
  have hlookup := Cache.yields_exactStencil (α := α) s
  rw [Coefficients.ofStencil_eq_map, hfault] at hlookup
  rw [valueWith, hx, hh]
  refine Yields.silent_bind (b := t) (Yields.ofExcept _) ?_
  refine Yields.silent_bind (b := b) (Yields.ofExcept _) ?_
  exact Yields.bind_error hlookup

/-- **Points of a derivative.** A function that gives a number everywhere is called by a single worker
once at each sampled offset, in order, unless the offsets cannot be listed. -/
theorem exists_yields_valueWith (g : α → α) (s : Stencil) (machine : Machine) :
    ∃ outcome, Yields (valueWith (.ofScalar g) s ⟨.int 1, machine⟩ x h) outcome
      (if s.length < Memory.room then
        (s.offsets.filter fun o => ¬(s.placement = .central ∧ s.order % 2 = 1 ∧ o = 0)).map
          (pointAt t b.val)
      else []) := by
  by_cases hroom : s.length < Memory.room
  · have hworkers := Workers.resolve_one (α := α) machine (sampledOffsets s s.coefficients).length
    have hvalues : Yields (Sampling.values ⟨.int 1, machine⟩ (.ofScalar g)
        ((sampledOffsets s s.coefficients).map (pointAt t b.val))) _ _ :=
      Sampling.yields_values (pointAt t b.val) (fun o => g (t + Scalar.nearest (o : ℚ) * b.val))
        (fun o => SampledFunction.yields_call_ofScalar g _) (sampledOffsets s s.coefficients) hworkers
    rw [if_pos hroom, ← sampledOffsets_eq_filter]
    exact ⟨_, yields_valueWith_of_samples hx hh hroom hvalues⟩
  · rw [if_neg hroom]
    cases hlisted : (s.listedOffsets : Except (Fault α) (List ℤ)) with
    | error fault => exact ⟨_, yields_valueWith_of_listing hx hh _ hlisted _⟩
    | ok offsets => exact absurd ((s.listedOffsets_eq_ok_iff offsets).mp hlisted).1 hroom

/-- **Zero pattern and sampled points.** The coefficient of a stencil at an offset is zero if and only if
the stencil is central, of odd order, and the offset is zero.  So after any history a single worker calls
a function that gives a number everywhere once for each other offset, in increasing order, at the point
that this offset gives; these are some offsets at least.  Only if the offsets cannot be listed, the
function is not called. -/
theorem valueWithBandwidth_calls (history : List (Operation α)) (s : Stencil) (g : α → α)
    (strategy : AxisStrategy α) (machine : Machine) :
    ((Coefficients.ofStencil s : Except (Fault α) (List ℚ))
        = s.listedOffsets.map fun _ => s.coefficients) ∧
      List.Forall₂ (fun o c => c = 0 ↔ s.placement = .central ∧ s.order % 2 = 1 ∧ o = 0)
        s.offsets s.coefficients ∧
      s.offsets.Pairwise (· < ·) ∧
      (s.offsets.filter fun o => ¬(s.placement = .central ∧ s.order % 2 = 1 ∧ o = 0)) ≠ [] ∧
      ((UnivariateEvaluator.valueWithBandwidth ⟨.ofScalar g, s, strategy, ⟨.int 1, machine⟩⟩
          x h).perform (Session.after history)).2.calls
        = (Session.after history).calls ++ if s.length < Memory.room then
            (s.offsets.filter fun o => ¬(s.placement = .central ∧ s.order % 2 = 1 ∧ o = 0)).map
              (pointAt t b.val)
          else [] := by
  refine ⟨Coefficients.ofStencil_eq_map s, s.forall₂_coefficients, s.pairwise_lt_offsets, ?_, ?_⟩
  · rw [← sampledOffsets_eq_filter]
    exact sampledOffsets_ne_nil s
  · obtain ⟨outcome, hyields⟩ := exists_yields_valueWith hx hh g s machine
    exact (hyields _ (Session.sound_after history)).2.1

end Univariate

/-! ## Two stencils -/

/-- One as a bandwidth. -/
def Positive.one : Positive Float := ⟨Scalar.one, by decide +kernel⟩

namespace Univariate

/-- The central first derivative on three points does not sample the point itself. -/
theorem calls_threePointCentral :
    letI : Memory := .ample
    ((UnivariateEvaluator.valueWithBandwidth
        ⟨.ofScalar fun y => y * y, .threePointCentral, .fixed Positive.one, ⟨.int 1, default⟩⟩
        (.real Scalar.zero) (.real Positive.one.val)).perform (Session.after [])).2.calls
      = [pointAt Scalar.zero Positive.one.val (-1), pointAt Scalar.zero Positive.one.val 1] := by
  let : Memory := .ample
  have hroom : Stencil.threePointCentral.length < Memory.ample.room := by decide
  have hcalls := (valueWithBandwidth_calls (x := .real Scalar.zero) (h := .real Positive.one.val) rfl
    (Validation.requirePositive_val Positive.one "bandwidth") [] .threePointCentral (fun y => y * y)
    (.fixed Positive.one) default).2.2.2.2
  rw [if_pos hroom] at hcalls
  exact hcalls

/-- On a grid that cannot be listed the function is not called at all. -/
theorem not_sampled_on_uncountedForward :
    letI : Memory := .ample
    ¬∀ (s : Stencil) (g : Float → Float) (strategy : AxisStrategy Float) (machine : Machine)
        (x : Float) (h : Positive Float),
      ((UnivariateEvaluator.valueWithBandwidth ⟨.ofScalar g, s, strategy, ⟨.int 1, machine⟩⟩
          (.real x) (.real h.val)).perform Session.empty).2.calls
        = (s.offsets.filter fun o => ¬(s.placement = .central ∧ s.order % 2 = 1 ∧ o = 0)).map
            (pointAt x h.val) := by
  let : Memory := .ample
  intro hall
  have hsampled := hall .uncountedForward id (.fixed Positive.one) default Scalar.zero Positive.one
  have hroom : ¬Stencil.uncountedForward.length < Memory.ample.room := by decide +kernel
  obtain ⟨outcome, hyields⟩ := exists_yields_valueWith (x := .real Scalar.zero)
    (h := .real Positive.one.val) rfl (Validation.requirePositive_val Positive.one "bandwidth") id
    .uncountedForward default
  rw [if_neg hroom] at hyields
  have hnone := (hyields _ (Session.sound_after [])).2.1
  have hnil := List.map_eq_nil_iff.mp (hsampled.symm.trans hnone)
  rw [← sampledOffsets_eq_filter] at hnil
  exact sampledOffsets_ne_nil _ hnil

end Univariate

end FiniteDifference
