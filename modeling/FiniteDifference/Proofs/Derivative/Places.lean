import FiniteDifference.Derivative.Multivariate
import FiniteDifference.Proofs.Argument.Conversions
import FiniteDifference.Proofs.Coefficients.Tensor
import FiniteDifference.Proofs.Derivative.SampledPoints
import FiniteDifference.Proofs.RowMajor.Writing

/-!
# Points of derivatives

A derivative in one or in several variables checks its arguments, finds the points of its grid, samples the
function there and estimates from the samples.  For accepted arguments the points are found unless there are
too many of them, and these are one at least.
-/

open FiniteDifference.Action

namespace FiniteDifference

variable {α : Type} [Scalar α]

/-- **Sampled estimates.** An action that has the fault of its points if these are not found, and otherwise
samples a function at the points, which are one at least, and estimates from the samples. -/
structure Sampling.Estimates [Memory] (crew : Crew α) (f : SampledFunction α)
    (places : Except (Fault α) (List (Point α))) (estimate : List α → Except (Fault α) α)
    (a : Action α α) : Prop where
  ne_nil : places ≠ .ok []
  of_error : ∀ fault, places = .error fault → Yields a (.error fault) []
  of_ok : ∀ points outcome calls, places = .ok points → Yields (values crew f points) outcome calls →
    Yields a (outcome >>= estimate) calls

/-! ## Derivatives in one variable -/

namespace Univariate

/-- **Accepted arguments.** A number as the point and a positive one as the bandwidth. -/
def Accepts (x h : Argument α) : Prop :=
  (∃ t, x.toScalar = .ok t) ∧ ∃ b, Validation.requirePositive h "bandwidth" = .ok b

/-- The points of a derivative, which are found for a number, a bandwidth and a stencil whose offsets can be
listed. -/
def places [Memory] (s : Stencil) (x h : Argument α) : Except (Fault α) (List (Point α)) := do
  let x ← x.toScalar
  let h ← Validation.requirePositive h "bandwidth"
  let _ ← s.listedOffsets
  return (sampledOffsets s s.coefficients).map (pointAt x h.val)

/-- The derivative from the samples at its points. -/
def ofSamples [Memory] (s : Stencil) (h : Argument α) (samples : List α) : Except (Fault α) α := do
  let h ← Validation.requirePositive h "bandwidth"
  Evaluation.outcome (.axis s) (spread s.coefficients samples) (.real h.val)

variable [Memory] {s : Stencil} {x h : Argument α}

/-- Points are found for accepted arguments and a stencil whose grid there is room for. -/
theorem exists_of_places {points : List (Point α)} (hplaces : places s x h = .ok points) :
    ∃ t b, x.toScalar = .ok t ∧ Validation.requirePositive h "bandwidth" = .ok b ∧
      s.length < Memory.room ∧ points = (sampledOffsets s s.coefficients).map (pointAt t b.val) := by
  obtain ⟨t, ht, hrest⟩ := bind_eq_ok.mp hplaces
  obtain ⟨b, hb, hrest⟩ := bind_eq_ok.mp hrest
  obtain ⟨offsets, hlisted, hpoints⟩ := bind_eq_ok.mp hrest
  cases hpoints
  exact ⟨t, b, ht, hb, ((s.listedOffsets_eq_ok_iff offsets).mp hlisted).1, rfl⟩

/-- The points of accepted arguments are not rejected. -/
theorem not_isRejection_of_places (haccepts : Accepts x h) {fault : Fault α}
    (hfault : places s x h = .error fault) : ¬fault.IsRejection := by
  obtain ⟨⟨t, ht⟩, b, hb⟩ := haccepts
  rcases bind_eq_error.mp hfault with hx | ⟨t, -, hrest⟩
  · cases ht.symm.trans hx
  rcases bind_eq_error.mp hrest with hh | ⟨b, -, hrest⟩
  · cases hb.symm.trans hh
  rcases bind_eq_error.mp hrest with hlisted | ⟨offsets, -, hpoints⟩
  · unfold Stencil.listedOffsets at hlisted
    split_ifs at hlisted with hlong hroom
    · cases hlisted
      exact Fault.not_isRejection_of_kind .overflow (by decide) rfl
    · cases hlisted
      exact Fault.not_isRejection_of_kind .memory (by decide) rfl
  · cases hpoints

/-- **Derivatives in one variable** are estimates from samples. -/
theorem estimates_valueWith (f : SampledFunction α) (s : Stencil) (crew : Crew α) (x h : Argument α) :
    Sampling.Estimates crew f (places s x h) (ofSamples s h) (valueWith f s crew x h) where
  ne_nil hnil := by
    obtain ⟨_, _, -, -, -, hpoints⟩ := exists_of_places hnil
    exact sampledOffsets_ne_nil s (List.map_eq_nil_iff.mp hpoints.symm)
  of_error fault hfault := by
    rcases bind_eq_error.mp hfault with hx | ⟨t, hx, hrest⟩
    · rw [valueWith, hx]
      exact Yields.bind_error (Yields.ofExcept _)
    rcases bind_eq_error.mp hrest with hh | ⟨b, hh, hrest⟩
    · rw [valueWith, hx, hh]
      exact Yields.silent_bind (b := t) (Yields.ofExcept _) (Yields.bind_error (Yields.ofExcept _))
    rcases bind_eq_error.mp hrest with hlisted | ⟨_, -, hpoints⟩
    · exact yields_valueWith_of_listing hx hh f hlisted crew
    · cases hpoints
  of_ok points outcome calls hplaces hvalues := by
    obtain ⟨t, b, hx, hh, hroom, rfl⟩ := exists_of_places hplaces
    have hestimate : ofSamples s h
        = fun samples => Evaluation.outcome (.axis s) (spread s.coefficients samples) (.real b.val) := by
      funext samples
      rw [ofSamples, hh]
      rfl
    rw [hestimate]
    exact yields_valueWith_of_samples hx hh hroom hvalues

end Univariate

/-! ## Derivatives in several variables -/

namespace Multivariate

/-- **Accepted arguments.** A point and positive bandwidths, as many as there are variables. -/
def Accepts (t : Tensor) (point h : Argument α) : Prop :=
  (∃ xs, Validation.requirePoint point "point" = .ok xs ∧ xs.length = t.dimension) ∧
    ∃ bs, Validation.requirePositiveVector h "bandwidth" = .ok bs ∧ bs.length = t.dimension

/-- The points of a mixed derivative. -/
def places (t : Tensor) (point h : Argument α) : Except (Fault α) (List (Point α)) :=
  (gridPoints t point h).map (·.map Point.vector)

/-- **Grid points by linear positions.** The points are those of the digits of all positions below the size, in
order; nothing is left of the list that is overwritten. -/
theorem points_eq_map (t : Tensor) (xs hs : List α) :
    points t xs hs
      = (List.range t.size).map fun j => coordinates xs hs t.lefts (RowMajor.digits t.lengths j) :=
  RowMajor.foldl_set_traversal (coordinates xs hs t.lefts) t.lengths List.length_replicate

theorem length_points (t : Tensor) (xs hs : List α) : (points t xs hs).length = t.size := by
  rw [points_eq_map, List.length_map, List.length_range]

variable {t : Tensor} {point h : Argument α}

/-- Grid points are found for accepted arguments and a grid whose points can be counted. -/
theorem exists_of_gridPoints {grid : List (List α)} (hgrid : gridPoints t point h = .ok grid) :
    Accepts t point h ∧ t.size < RowMajor.sizeBound ∧ grid.length = t.size := by
  obtain ⟨xs, hxs, hrest⟩ := bind_eq_ok.mp hgrid
  obtain ⟨bs, hbs, hrest⟩ := bind_eq_ok.mp hrest
  obtain ⟨_, hx, hrest⟩ := bind_eq_ok.mp hrest
  obtain ⟨_, hb, hrest⟩ := bind_eq_ok.mp hrest
  obtain ⟨_, -, hrest⟩ := bind_eq_ok.mp hrest
  obtain ⟨_, hcounted, hpoints⟩ := bind_eq_ok.mp hrest
  cases hpoints
  refine ⟨⟨⟨xs, hxs, Validation.eq_of_checkSize hx⟩, bs, hbs, Validation.eq_of_checkSize hb⟩, ?_,
    length_points t _ _⟩
  rw [RowMajor.countedSize] at hcounted
  split at hcounted
  · next hsize => exact hsize
  · cases hcounted

/-- The points of a mixed derivative are its grid points. -/
theorem exists_of_places {points : List (Point α)} (hplaces : places t point h = .ok points) :
    ∃ grid, gridPoints t point h = .ok grid ∧ grid.map Point.vector = points :=
  map_eq_ok.mp hplaces

/-- The points of accepted arguments are not rejected. -/
theorem not_isRejection_of_places (haccepts : Accepts t point h) {fault : Fault α}
    (hfault : places t point h = .error fault) : ¬fault.IsRejection := by
  obtain ⟨⟨xs, hxs, hx⟩, bs, hbs, hb⟩ := haccepts
  rw [places, map_eq_error, gridPoints, hxs, hbs] at hfault
  dsimp only [Bind.bind, Except.bind] at hfault
  rw [Validation.checkSize, if_pos hx, Validation.checkSize, if_pos hb] at hfault
  -- the checks are passed
  rcases bind_eq_error.mp hfault with hlefts | ⟨lefts, -, hrest⟩
  · obtain ⟨_, left, _, -, -, hleft⟩ := mapM_eq_error_iff.mp hlefts
    exact Argument.not_isRejection_of_toScalar (a := .int left) hleft
  rcases bind_eq_error.mp hrest with hcounted | ⟨size, -, hpoints⟩
  · rw [RowMajor.countedSize] at hcounted
    split at hcounted <;> cases hcounted
    exact Fault.not_isRejection_of_kind .overflow (by decide) rfl
  · cases hpoints

/-- **Mixed derivatives** are estimates from samples. -/
theorem estimates_valueWith [Memory] (f : SampledFunction α) (t : Tensor) (crew : Crew α)
    (point h : Argument α) :
    Sampling.Estimates crew f (places t point h) (Evaluation.outcome (.tensor t) · h)
      (valueWith f t crew point h) where
  ne_nil hnil := by
    obtain ⟨grid, hgrid, hmap⟩ := exists_of_places hnil
    have hpos : 0 < t.size := RowMajor.size_pos t.lengths_pos
    rw [← (exists_of_gridPoints hgrid).2.2, List.map_eq_nil_iff.mp hmap] at hpos
    exact absurd hpos (Nat.lt_irrefl 0)
  of_error fault hfault := by
    rw [valueWith, map_eq_error.mp hfault]
    exact Yields.bind_error (Yields.ofExcept _)
  of_ok points outcome calls hplaces hvalues := by
    obtain ⟨grid, hgrid, rfl⟩ := exists_of_places hplaces
    rw [valueWith, hgrid]
    refine Yields.silent_bind (b := grid) (Yields.ofExcept _) ?_
    cases outcome with
    | error fault => exact Yields.bind_error hvalues
    | ok samples => exact Yields.bind_silent hvalues (Evaluation.yields_grid (.tensor t) samples h)

end Multivariate

end FiniteDifference
