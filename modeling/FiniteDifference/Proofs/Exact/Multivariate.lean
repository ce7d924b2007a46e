import FiniteDifference.Proofs.Derivative.Places
import FiniteDifference.Proofs.Exact.Univariate

/-!
# Exact estimates in several variables

In exact arithmetic the estimate of a mixed derivative is nested: along the first axis it is the estimate
of a function of one variable, whose values are the estimates along the later axes.
-/

open FiniteDifference.Action

namespace FiniteDifference

/-- **Nested estimates.** The estimate along the first axis of the function that is estimated along the
later axes, with the coordinates in front held. -/
def nestedEstimate : List Stencil → List ℚ → List ℚ → (List ℚ → ℚ) → ℚ
  | s :: axes, x :: xs, h :: hs, f =>
    s.estimate (fun y => nestedEstimate axes xs hs fun ys => f (y :: ys)) x h
  | _, _, _, f => f []

/-- Nested estimates are additive. -/
theorem nestedEstimate_add (axes : List Stencil) (xs hs : List ℚ) (f g : List ℚ → ℚ) :
    nestedEstimate axes xs hs (fun ys => f ys + g ys)
      = nestedEstimate axes xs hs f + nestedEstimate axes xs hs g := by
  induction axes generalizing xs hs f g with
  | nil => rfl
  | cons s axes ih =>
    rcases xs with - | ⟨x, xs⟩
    · rfl
    rcases hs with - | ⟨h, hs⟩
    · rfl
    simp only [nestedEstimate, ih, Stencil.estimate_add]

/-- Nested estimates are homogeneous. -/
theorem nestedEstimate_const_mul (axes : List Stencil) (xs hs : List ℚ) (c : ℚ) (f : List ℚ → ℚ) :
    nestedEstimate axes xs hs (fun ys => c * f ys) = c * nestedEstimate axes xs hs f := by
  induction axes generalizing xs hs f with
  | nil => rfl
  | cons s axes ih =>
    rcases xs with - | ⟨x, xs⟩
    · rfl
    rcases hs with - | ⟨h, hs⟩
    · rfl
    simp only [nestedEstimate, ih, Stencil.estimate_const_mul]

/-- The product of the powers of the bandwidths. -/
def scaleProduct (axes : List Stencil) (hs : List ℚ) : ℚ :=
  (List.zipWith (fun s h => h ^ s.order) axes hs).prod

/-! ## Sums over rows -/

/-- A sum of products of two lists that are made of rows is the sum over the rows. -/
theorem sum_zipWith_flatMap {β : Type} (l : List β) (a b : β → List ℚ)
    (h : ∀ i, (a i).length = (b i).length) :
    (List.zipWith (· * ·) (l.flatMap a) (l.flatMap b)).sum
      = (l.map fun i => (List.zipWith (· * ·) (a i) (b i)).sum).sum := by
  induction l with
  | nil => rfl
  | cons i l ih =>
    rw [List.flatMap_cons, List.flatMap_cons, List.zipWith_append (h i), List.sum_append, ih,
      List.map_cons, List.sum_cons]

/-- A factor of all coefficients of a row is a factor of the sum. -/
theorem sum_zipWith_map_mul (c : ℚ) (l m : List ℚ) :
    (List.zipWith (· * ·) (l.map (c * ·)) m).sum = c * (List.zipWith (· * ·) l m).sum := by
  induction l generalizing m with
  | nil => simp
  | cons a l ih =>
    cases m with
    | nil => simp
    | cons b m =>
      rw [List.map_cons, List.zipWith_cons_cons, List.sum_cons, ih, List.zipWith_cons_cons,
        List.sum_cons]
      ring

theorem scaleProduct_cons (s : Stencil) (axes : List Stencil) (h : ℚ) (hs : List ℚ) :
    scaleProduct (s :: axes) (h :: hs) = h ^ s.order * scaleProduct axes hs := by
  rw [scaleProduct, List.zipWith_cons_cons, List.prod_cons, scaleProduct]

/-- The scale of positive bandwidths is positive. -/
theorem scaleProduct_pos {hs : List ℚ} (hpos : ∀ h ∈ hs, 0 < h) (axes : List Stencil) :
    0 < scaleProduct axes hs := by
  induction axes generalizing hs with
  | nil => exact one_pos
  | cons s axes ih =>
    cases hs with
    | nil => exact one_pos
    | cons h hs =>
      rw [List.forall_mem_cons] at hpos
      rw [scaleProduct_cons]
      exact mul_pos (pow_pos hpos.1 _) (ih hpos.2)

/-! ## Contraction of a grid -/

variable [FractionalPower]

/-- **Contraction along the first axis.** The sum over a grid is the nested estimate times the scale, by
induction on the axes: the rows of the first axis have the grids of the later axes as their rests. -/
theorem sum_grid (axes : List Stencil) {xs hs : List ℚ} (hx : xs.length = axes.length)
    (hh : hs.length = axes.length) (hpos : ∀ h ∈ hs, 0 < h) (f : List ℚ → ℚ) :
    (List.zipWith (· * ·) (Coefficients.outer (axes.map Stencil.coefficients))
      ((List.range (RowMajor.size (axes.map Stencil.length))).map fun j =>
        f (Multivariate.coordinates xs hs (axes.map Stencil.left)
          (RowMajor.digits (axes.map Stencil.length) j)))).sum
      = scaleProduct axes hs * nestedEstimate axes xs hs f := by
  induction axes generalizing xs hs f with
  | nil =>
    obtain rfl := List.length_eq_zero_iff.mp hx
    obtain rfl := List.length_eq_zero_iff.mp hh
    show (1 * f [] + 0 : ℚ) = 1 * f []
    rw [add_zero]
  | cons s axes ih =>
    obtain ⟨x, xs, rfl⟩ := List.exists_cons_of_length_eq_add_one hx
    obtain ⟨h, hs, rfl⟩ := List.exists_cons_of_length_eq_add_one hh
    rw [List.forall_mem_cons] at hpos
    have hrest : ∀ y, _ := fun y =>
      ih (Nat.succ.inj hx) (Nat.succ.inj hh) hpos.2 fun ys => f (y :: ys)
    have hrow : s.coefficients = (List.range s.length).map fun i : ℕ =>
        Coefficients.weight s.offsets s.order (s.left + i) := by
      rw [Stencil.coefficients]
      conv_lhs => rw [Stencil.offsets, List.map_map]
      rfl
    have hsplit : ∀ i j : ℕ, Multivariate.coordinates (x :: xs) (h :: hs)
        (s.left :: axes.map Stencil.left) (i :: RowMajor.digits (axes.map Stencil.length) j)
          = (x + h * (s.left + i)) :: Multivariate.coordinates xs hs (axes.map Stencil.left)
              (RowMajor.digits (axes.map Stencil.length) j) := fun i j => rfl
    have hpow : h ^ s.order ≠ 0 := (pow_pos hpos.1 _).ne'
    -- coefficients and grid points are both listed row by row of the first axis
    rw [List.map_cons, List.map_cons, List.map_cons, RowMajor.map_digits_cons (fun index => f
      (Multivariate.coordinates (x :: xs) (h :: hs) (s.left :: axes.map Stencil.left) index)),
      Coefficients.outer, hrow, List.flatMap_map, sum_zipWith_flatMap _ _ _
        (by simp [Coefficients.length_outer_coefficients])]
    simp only [sum_zipWith_map_mul, hsplit, hrest]
    rw [nestedEstimate, Stencil.estimate_eq_range, scaleProduct_cons, mul_right_comm,
      mul_div_cancel₀ _ hpow, ← List.sum_map_mul_right]
    congr 2
    funext i
    ring

namespace Multivariate

/-! ## Scales -/

/-- The divisor of checked bandwidths is their scale. -/
theorem productScale_eq (acc : ℚ) (axes : List Stencil) (ps : List (Positive ℚ)) :
    Evaluation.productScale acc (ps.zip (axes.map Stencil.order))
      = .ok (acc * scaleProduct axes (ps.map (·.val))) := by
  induction axes generalizing acc ps with
  | nil => simp [Evaluation.productScale, scaleProduct]
  | cons s axes ih =>
    cases ps with
    | nil => simp [Evaluation.productScale, scaleProduct]
    | cons p ps =>
      rw [List.map_cons, List.map_cons, List.zip_cons_cons, scaleProduct_cons, ← mul_assoc]
      exact ih (acc * p.val ^ s.order) ps

omit [FractionalPower] in
/-- A tensor stencil has an axis, so as many bandwidths are not none. -/
theorem ne_nil_of_length_eq {β : Type} {t : Tensor} {l : List β} (h : l.length = t.dimension) :
    l ≠ [] := by
  rw [← List.length_pos_iff, h]
  exact List.length_pos_iff.mpr t.axes_ne_nil

/-- The divisor of a tensor stencil is the scale: the checks of the bandwidths pass. -/
theorem scale_tensor {t : Tensor} {ps : List (Positive ℚ)} (hps : ps.length = t.dimension) :
    Evaluation.scale (.descriptor (.tensor t)) (Argument.ofReals (ps.map (·.val)))
      = .ok (scaleProduct t.axes (ps.map (·.val))) := by
  show (Validation.requirePositiveVector _ "bandwidth" >>= _) = _
  rw [Validation.requirePositiveVector_ofReals (ne_nil_of_length_eq hps)]
  show (Validation.checkSize ps.length t.dimension "bandwidth dimension" >>= _) = _
  rw [Validation.checkSize, if_pos hps]
  show Evaluation.productScale 1 (ps.zip (t.axes.map Stencil.order)) = _
  rw [productScale_eq, one_mul]

variable [Memory]

/-- The outcome of the grid of a tensor stencil whose grid points can be counted. -/
theorem outcome_tensor {t : Tensor} (hsize : t.size < RowMajor.sizeBound) {samples : List ℚ}
    (hlen : samples.length = t.size) {ps : List (Positive ℚ)} (hps : ps.length = t.dimension) :
    Evaluation.outcome (.tensor t) samples (Argument.ofReals (ps.map (·.val))) =
      if ∀ s ∈ t.axes, s.length < Memory.room then
        .ok ((List.zipWith (· * ·) t.coefficients samples).sum
          / scaleProduct t.axes (ps.map (·.val)))
      else .error .noRoom := by
  by_cases hroom : ∀ s ∈ t.axes, s.length < Memory.room
  · have hgen := Tensor.generated_eq (α := ℚ) hsize
    rw [if_pos hroom] at hgen
    rw [if_pos hroom]
    exact Exact.outcome_eq_ok hgen (by rw [hlen, t.length_coefficients]) (scale_tensor hps)
      (scaleProduct_pos (Exact.forall_val_pos ps) t.axes).ne'
  · rw [Evaluation.outcome, Exact.generatedScalars_eq, Tensor.generated_eq hsize, if_neg hroom,
      if_neg hroom]
    rfl

/-! ## Grid points -/

omit [Memory] in
/-- **Grid points.** They are found for a point and positive bandwidths of the right length, unless there
are too many to be counted. -/
theorem gridPoints_eq {t : Tensor} {xs : List ℚ} (hx : xs.length = t.dimension)
    {ps : List (Positive ℚ)} (hps : ps.length = t.dimension) :
    gridPoints t (Argument.ofReals xs) (Argument.ofReals (ps.map (·.val))) =
      if t.size < RowMajor.sizeBound then .ok (points t xs (ps.map (·.val)))
      else .error (.tooLarge .size) := by
  -- the checks are passed in their order, down to the number of grid points
  have hlefts : (t.lefts.mapM Argument.scalarOfInt : Except (Fault ℚ) (List ℚ))
      = .ok (t.lefts.map fun left : ℤ => (left : ℚ)) := List.mapM_pure
  rw [gridPoints, Validation.requirePoint_ofReals]
  show (Validation.requirePositiveVector _ "bandwidth" >>= _) = _
  rw [Validation.requirePositiveVector_ofReals (ne_nil_of_length_eq hps)]
  show (Validation.checkSize xs.length t.dimension "point dimension" >>= _) = _
  rw [Validation.checkSize, if_pos hx]
  show (Validation.checkSize ps.length t.dimension "bandwidth dimension" >>= _) = _
  rw [Validation.checkSize, if_pos hps]
  show (t.lefts.mapM Argument.scalarOfInt >>= _) = _
  rw [hlefts]
  show ((RowMajor.countedSize t.lengths : Except (Fault ℚ) ℕ) >>= _) = _
  rw [RowMajor.countedSize, ← Tensor.size]
  by_cases hsize : t.size < RowMajor.sizeBound
  · rw [if_pos hsize, if_pos hsize]
    rfl
  · rw [if_neg hsize, if_neg hsize]
    rfl

/-! ## Estimates -/

/-- **Derivatives in several variables.** A function that is sampled with a tensor stencil whose grid points
can be counted is called at each of them once, in row-major order, and gives the nested estimate, unless
there is no room for the grid of an axis. -/
theorem yields_valueWith (g : List ℚ → ℚ) {t : Tensor} (hsize : t.size < RowMajor.sizeBound)
    (crew : Crew ℚ) {xs hs : List ℚ} (hx : xs.length = t.dimension) (hh : hs.length = t.dimension)
    (hpos : ∀ h ∈ hs, 0 < h) :
    Yields (valueWith (.ofVector g) t crew (Argument.ofReals xs) (Argument.ofReals hs))
      (if ∀ s ∈ t.axes, s.length < Memory.room then .ok (nestedEstimate t.axes xs hs g)
      else .error .noRoom)
      ((points t xs hs).map Point.vector) := by
  obtain ⟨ps, rfl⟩ := Exact.exists_positives hpos
  rw [List.length_map] at hh
  obtain ⟨workers, hworkers⟩ := Exact.exists_resolve crew.machine crew.request
    (points t xs (ps.map (·.val))).length
  have hpoints : Yields (Action.ofExcept
      (gridPoints t (Argument.ofReals xs) (Argument.ofReals (ps.map (·.val)))))
      (.ok (points t xs (ps.map (·.val)))) [] := by
    rw [gridPoints_eq hx hh, if_pos hsize]
    exact Yields.ofExcept _
  have hvalues := Sampling.yields_values (f := .ofVector g) Point.vector g
    (SampledFunction.yields_call_ofVector g) _ hworkers
  have hgrid := Evaluation.yields_grid (.tensor t) ((points t xs (ps.map (·.val))).map g)
    (Argument.ofReals (ps.map (·.val)))
  have hsum : (List.zipWith (· * ·) t.coefficients ((points t xs (ps.map (·.val))).map g)).sum
      = scaleProduct t.axes (ps.map (·.val)) * nestedEstimate t.axes xs (ps.map (·.val)) g := by
    rw [points_eq_map, List.map_map]
    exact sum_grid t.axes hx (by rwa [List.length_map]) hpos g
  rw [outcome_tensor hsize (by rw [List.length_map, length_points]) hh, hsum,
    mul_div_cancel_left₀ _ (scaleProduct_pos hpos t.axes).ne'] at hgrid
  exact Yields.silent_bind hpoints (Yields.bind_silent hvalues hgrid)

/-- If the grid points cannot be counted, this is the fault, and the function is not called. -/
theorem yields_valueWith_of_tooLarge (f : SampledFunction ℚ) {t : Tensor}
    (hsize : RowMajor.sizeBound ≤ t.size) (crew : Crew ℚ) {xs hs : List ℚ}
    (hx : xs.length = t.dimension) (hh : hs.length = t.dimension) (hpos : ∀ h ∈ hs, 0 < h) :
    Yields (valueWith f t crew (Argument.ofReals xs) (Argument.ofReals hs))
      (.error (.tooLarge .size)) [] := by
  obtain ⟨ps, rfl⟩ := Exact.exists_positives hpos
  rw [List.length_map] at hh
  refine Yields.bind_error ?_
  rw [gridPoints_eq hx hh, if_neg (Nat.not_lt.mpr hsize)]
  exact Yields.ofExcept _

/-- **The outcome in several variables.** The derivative is the nested estimate, unless there are too many
grid points or there is no room for the grid of an axis. -/
theorem outcome_valueWith (g : List ℚ → ℚ) (t : Tensor) (crew : Crew ℚ) {xs hs : List ℚ}
    (hx : xs.length = t.dimension) (hh : hs.length = t.dimension) (hpos : ∀ h ∈ hs, 0 < h) :
    ∃ calls, Yields (valueWith (.ofVector g) t crew (Argument.ofReals xs) (Argument.ofReals hs))
      (if t.size < RowMajor.sizeBound then
        if ∀ s ∈ t.axes, s.length < Memory.room then .ok (nestedEstimate t.axes xs hs g)
        else .error .noRoom
      else .error (.tooLarge .size)) calls := by
  by_cases hsize : t.size < RowMajor.sizeBound
  · rw [if_pos hsize]
    exact ⟨_, yields_valueWith g hsize crew hx hh hpos⟩
  · rw [if_neg hsize]
    exact ⟨_, yields_valueWith_of_tooLarge _ (Nat.not_lt.mp hsize) crew hx hh hpos⟩

end Multivariate

end FiniteDifference
