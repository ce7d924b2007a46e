import FiniteDifference.Derivative.Evaluator
import FiniteDifference.Proofs.Coefficients.ValueAxes
import FiniteDifference.Proofs.Exact.Multivariate
import FiniteDifference.Proofs.Sampling.Outcomes

/-!
# Derivatives with value axes

Along a value axis a grid has one index, and every grid point has the coordinate of the point of interest
there.  So in exact arithmetic a derivative with value axes is the derivative without them, of the function
whose other coordinates are held, whatever the bandwidths along the value axes are.
-/

open FiniteDifference.Action

namespace FiniteDifference

variable {β : Type}

/-! ## Coordinates -/

/-- **Kept entries.** The entries of a list at the places that a mask keeps. -/
def kept : List Bool → List β → List β
  | true :: mask, x :: xs => x :: kept mask xs
  | false :: mask, _ :: xs => kept mask xs
  | _, _ => []

/-- **Placed entries.** The entries of the second list at the places that a mask keeps, and those of the
first list at the other places. -/
def placed : List Bool → List β → List β → List β
  | true :: mask, _ :: xs, y :: ys => y :: placed mask xs ys
  | false :: mask, x :: xs, ys => x :: placed mask xs ys
  | _, _, _ => []

/-- Kept entries are entries. -/
theorem mem_of_mem_kept {mask : List Bool} {xs : List β} {x : β} (h : x ∈ kept mask xs) : x ∈ xs := by
  induction mask generalizing xs with
  | nil => cases h
  | cons own mask ih =>
    cases xs with
    | nil => cases own <;> cases h
    | cons y xs =>
      cases own with
      | false => exact List.mem_cons_of_mem y (ih h)
      | true =>
        rcases List.mem_cons.mp h with rfl | h
        · exact List.mem_cons_self
        · exact List.mem_cons_of_mem y (ih h)

namespace SampledFunction

variable {α : Type}

/-- **Held coordinates.** The function of the coordinates at the places that a mask keeps, with the other
coordinates held at those of a point.  What fails at every vector is left as it is. -/
def held (mask : List Bool) (xs : List α) : SampledFunction α → SampledFunction α
  | .rule value => .rule fun
    | .number y => value (.vector (placed mask xs [y]))
    | .block b => value (.vector (placed mask xs b.entries))
  | f => f

/-- With held coordinates a function answers what it answers where they are put back. -/
theorem answerAt_held (mask : List Bool) (xs : List α) (f : SampledFunction α) (ys : List α) :
    (f.held mask xs).answerAt ys = f.answerAt (placed mask xs ys) := by
  cases f <;> rfl

end SampledFunction

namespace ValuesInserted

variable {mask : List Bool} {axes larger : List Stencil}

/-- As many entries are kept as there are axes of the smaller list. -/
theorem length_kept (h : ValuesInserted mask axes larger) {xs : List β} (hx : xs.length = larger.length) :
    (kept mask xs).length = axes.length := by
  induction h generalizing xs with
  | nil => cases xs <;> rfl
  | own s rest ih =>
    obtain ⟨x, xs, rfl⟩ := List.exists_cons_of_length_eq_add_one hx
    exact congrArg Nat.succ (ih (Nat.succ.inj hx))
  | value hv rest ih =>
    obtain ⟨x, xs, rfl⟩ := List.exists_cons_of_length_eq_add_one hx
    exact ih (Nat.succ.inj hx)

/-- **Scales.** The bandwidth of a value axis has the power zero. -/
theorem scaleProduct_eq (h : ValuesInserted mask axes larger) {hs : List ℚ}
    (hh : hs.length = larger.length) : scaleProduct larger hs = scaleProduct axes (kept mask hs) := by
  induction h generalizing hs with
  | nil => cases hs <;> rfl
  | own s rest ih =>
    obtain ⟨b, hs, rfl⟩ := List.exists_cons_of_length_eq_add_one hh
    rw [kept, scaleProduct_cons, scaleProduct_cons, ih (Nat.succ.inj hh)]
  | value hv rest ih =>
    obtain ⟨b, hs, rfl⟩ := List.exists_cons_of_length_eq_add_one hh
    rw [kept, scaleProduct_cons, hv, pow_zero, one_mul, ih (Nat.succ.inj hh)]

variable [FractionalPower]

/-! ## Grid points -/

/-- **One grid point.** It has the coordinates of the point of interest along the value axes, and those of
the smaller grid along the others.  By induction on the insertion: the index along a value axis is zero. -/
theorem coordinates_eq (h : ValuesInserted mask axes larger) {xs hs : List ℚ}
    (hx : xs.length = larger.length) (hh : hs.length = larger.length) {j : ℕ}
    (hj : j < RowMajor.size (larger.map Stencil.length)) :
    Multivariate.coordinates xs hs (larger.map Stencil.left)
        (RowMajor.digits (larger.map Stencil.length) j)
      = placed mask xs (Multivariate.coordinates (kept mask xs) (kept mask hs)
          (axes.map Stencil.left) (RowMajor.digits (axes.map Stencil.length) j)) := by
  induction h generalizing xs hs j with
  | nil =>
    obtain rfl := List.length_eq_zero_iff.mp hx
    rfl
  | own s rest ih =>
    obtain ⟨x, xs, rfl⟩ := List.exists_cons_of_length_eq_add_one hx
    obtain ⟨b, hs, rfl⟩ := List.exists_cons_of_length_eq_add_one hh
    have hrest := ih (Nat.succ.inj hx) (Nat.succ.inj hh) (RowMajor.split_lt hj).2
    rw [List.map_cons, List.map_cons, List.map_cons, List.map_cons, RowMajor.digits, RowMajor.digits,
      ← rest.size_eq]
    exact congrArg (List.cons _) hrest
  | @value _ _ larger v hv rest ih =>
    obtain ⟨x, xs, rfl⟩ := List.exists_cons_of_length_eq_add_one hx
    obtain ⟨b, hs, rfl⟩ := List.exists_cons_of_length_eq_add_one hh
    rw [List.map_cons, v.length_of_order_eq_zero hv, RowMajor.size, Nat.one_mul] at hj
    have hrest := ih (Nat.succ.inj hx) (Nat.succ.inj hh) hj
    have hhere : x + b * (((0 : ℤ) : ℚ) + ((0 : ℕ) : ℚ)) = x := by simp
    rw [List.map_cons, List.map_cons, v.length_of_order_eq_zero hv, v.left_of_order_eq_zero hv,
      RowMajor.digits, Nat.div_eq_of_lt hj, Nat.mod_eq_of_lt hj]
    show (x + b * (((0 : ℤ) : ℚ) + ((0 : ℕ) : ℚ))) :: _ = x :: _
    rw [hhere]
    exact congrArg (List.cons x) hrest

end ValuesInserted

/-- The divisor of a tensor stencil for positive bandwidths is their scale. -/
theorem Multivariate.scale_of_pos [FractionalPower] {t : Tensor} {hs : List ℚ}
    (hh : hs.length = t.dimension) (hpos : ∀ b ∈ hs, 0 < b) :
    Evaluation.scale (.descriptor (.tensor t)) (Argument.ofReals hs) = .ok (scaleProduct t.axes hs) := by
  obtain ⟨ps, rfl⟩ := Exact.exists_positives hpos
  rw [List.length_map] at hh
  exact scale_tensor hh

namespace ValuesInserted

variable {mask : List Bool} {t larger : Tensor} [FractionalPower]

/-- **Grid points.** Those of the larger grid are those of the smaller one in the same order, with the
held coordinates put back. -/
theorem points_eq (h : ValuesInserted mask t.axes larger.axes) {xs hs : List ℚ}
    (hx : xs.length = larger.dimension) (hh : hs.length = larger.dimension) :
    Multivariate.points larger xs hs
      = (Multivariate.points t (kept mask xs) (kept mask hs)).map (placed mask xs) := by
  rw [Multivariate.points_eq_map, Multivariate.points_eq_map, List.map_map]
  rw [Tensor.size, Tensor.size, Tensor.lengths, Tensor.lengths, h.size_eq]
  refine List.map_congr_left fun j hj => ?_
  exact h.coordinates_eq hx hh (by rw [h.size_eq]; exact List.mem_range.mp hj)

variable [Memory]

/-- **Grids.** Samples have the same outcome on either grid. -/
theorem outcome_eq (h : ValuesInserted mask t.axes larger.axes) (samples : List ℚ) {hs : List ℚ}
    (hh : hs.length = larger.dimension) (hpos : ∀ b ∈ hs, 0 < b) :
    Evaluation.outcome (.tensor larger) samples (Argument.ofReals hs)
      = Evaluation.outcome (.tensor t) samples (Argument.ofReals (kept mask hs)) := by
  have hkept : (kept mask hs).length = t.dimension := h.length_kept hh
  rw [Evaluation.outcome, Evaluation.outcome, Cache.generatedScalars, Cache.generatedScalars,
    h.generated_eq, Multivariate.scale_of_pos hh hpos,
    Multivariate.scale_of_pos hkept fun b hb => hpos b (mem_of_mem_kept hb), h.scaleProduct_eq hh]

end ValuesInserted

/-! ## Derivatives -/

namespace Multivariate

variable [Memory] [FractionalPower]

/-- **Derivatives of any function.** The answers of the function at the grid points are gathered and
evaluated on the grid. -/
def outcomeOn (t : Tensor) (f : SampledFunction ℚ) (xs hs : List ℚ) : Except (Fault ℚ) ℚ := do
  let samples ← (points t xs hs).mapM f.answerAt >>= Sampling.gather
  Evaluation.outcome (.tensor t) samples (Argument.ofReals hs)

/-- A derivative has this outcome for any crew, unless there are too many grid points. -/
theorem exists_yields_outcomeOn (f : SampledFunction ℚ) (t : Tensor) (crew : Crew ℚ) {xs hs : List ℚ}
    (hx : xs.length = t.dimension) (hh : hs.length = t.dimension) (hpos : ∀ b ∈ hs, 0 < b) :
    ∃ calls, Yields (valueWith f t crew (Argument.ofReals xs) (Argument.ofReals hs))
      (if t.size < RowMajor.sizeBound then outcomeOn t f xs hs else .error (.tooLarge .size)) calls := by
  by_cases hsize : t.size < RowMajor.sizeBound
  · obtain ⟨ps, rfl⟩ := Exact.exists_positives hpos
    rw [List.length_map] at hh
    obtain ⟨workers, hworkers⟩ := Exact.exists_resolve crew.machine crew.request
      (points t xs (ps.map (·.val))).length
    rw [if_pos hsize, valueWith, gridPoints_eq hx hh, if_pos hsize]
    refine Yields.exists_ok_bind ⟨[], Yields.ofExcept _⟩ ?_
    exact Yields.exists_bind (Sampling.outcome_values hworkers) fun samples =>
      ⟨[], Evaluation.yields_grid _ samples _⟩
  · rw [if_neg hsize]
    exact ⟨_, yields_valueWith_of_tooLarge f (Nat.not_lt.mp hsize) crew hx hh hpos⟩

end Multivariate

namespace ValuesInserted

variable [Memory] {mask : List Bool} {t larger : Tensor} [FractionalPower]

/-- A derivative with value axes is the derivative without them, of the function with held coordinates. -/
theorem outcomeOn_eq (h : ValuesInserted mask t.axes larger.axes) (f : SampledFunction ℚ)
    {xs hs : List ℚ} (hx : xs.length = larger.dimension) (hh : hs.length = larger.dimension)
    (hpos : ∀ b ∈ hs, 0 < b) :
    Multivariate.outcomeOn larger f xs hs
      = Multivariate.outcomeOn t (f.held mask xs) (kept mask xs) (kept mask hs) := by
  have hanswers : f.answerAt ∘ placed mask xs = (f.held mask xs).answerAt :=
    funext fun ys => (f.answerAt_held mask xs ys).symm
  rw [Multivariate.outcomeOn, Multivariate.outcomeOn, h.points_eq hx hh, List.mapM_map, hanswers]
  simp only [h.outcome_eq _ hh hpos]

/-- **Value axes are inert.** However value axes are inserted into a tensor stencil, the exact coefficients
stay, after any histories.  In exact arithmetic the evaluator with value axes has for every function, point
and positive bandwidths the outcome of the evaluator without them, for the function with the other
coordinates held at those of the point and the bandwidths along its own axes. -/
theorem exact_eq_and_value_eq (h : ValuesInserted mask t.axes larger.axes) :
    (∀ (α : Type) [Scalar α] (history earlier : List (Operation α)),
      ((Cache.exact (.descriptor (.tensor larger)) : Action α _).perform (Session.after history)).1
        = ((Cache.exact (.descriptor (.tensor t)) : Action α _).perform (Session.after earlier)).1) ∧
    ∀ (history earlier : List (Operation ℚ)) (f : SampledFunction ℚ)
      (strategy strategy' : VectorStrategy ℚ) (crew crew' : Crew ℚ) (x b : Fin larger.dimension → ℚ),
      (∀ a, 0 < b a) →
      ((MultivariateEvaluator.valueWithBandwidth ⟨f, larger, strategy, crew⟩
          (Argument.ofReals (List.ofFn x)) (Argument.ofReals (List.ofFn b))).perform
          (Session.after history)).1
        = ((MultivariateEvaluator.valueWithBandwidth
          ⟨f.held mask (List.ofFn x), t, strategy', crew'⟩
          (Argument.ofReals (kept mask (List.ofFn x)))
          (Argument.ofReals (kept mask (List.ofFn b)))).perform (Session.after earlier)).1 := by
  constructor
  · intro α _ history earlier
    have hlarger := (Cache.yields_exactOf (α := α) (.tensor larger)).outcome_after history
    have hsmaller := (Cache.yields_exactOf (α := α) (.tensor t)).outcome_after earlier
    rw [h.generated_eq] at hlarger
    exact hlarger.trans hsmaller.symm
  · intro history earlier f strategy strategy' crew crew' x b hpos
    have hx : (List.ofFn x).length = larger.dimension := List.length_ofFn
    have hb : (List.ofFn b).length = larger.dimension := List.length_ofFn
    have hlist : ∀ y ∈ List.ofFn b, 0 < y := by
      intro y hy
      obtain ⟨a, rfl⟩ := (List.mem_ofFn' b y).mp hy
      exact hpos a
    have hsize : larger.size = t.size := h.size_eq
    obtain ⟨calls, hlarger⟩ := Multivariate.exists_yields_outcomeOn f larger crew hx hb hlist
    obtain ⟨calls', hsmaller⟩ := Multivariate.exists_yields_outcomeOn (f.held mask (List.ofFn x)) t
      crew' (h.length_kept hx) (h.length_kept hb) fun y hy => hlist y (mem_of_mem_kept hy)
    rw [hsize, h.outcomeOn_eq f hx hb hlist] at hlarger
    exact (hlarger.outcome_after history).trans (hsmaller.outcome_after earlier).symm

end ValuesInserted

/-- The backward first derivative with a value axis on either side. -/
def Tensor.betweenValues : Tensor :=
  ⟨[.value, .twoPointBackward, ⟨.forward, 0, 0, by decide⟩], List.cons_ne_nil _ _⟩

/-- The backward first derivative, with and without value axes on its sides. -/
theorem ValuesInserted.exact_eq_and_value_eq_betweenValues :
    letI : Memory := .ample
    letI : FractionalPower := ⟨fun _ _ => 0⟩
    ValuesInserted [false, true, false] (Tensor.single .twoPointBackward).axes
        Tensor.betweenValues.axes ∧
    ((Cache.exact (.descriptor (.tensor .betweenValues)) : Action Float _).perform
        (Session.after [])).1
      = ((Cache.exact (.descriptor (.tensor (.single .twoPointBackward))) : Action Float _).perform
        (Session.after [])).1 ∧
    ((MultivariateEvaluator.valueWithBandwidth
        ⟨.ofVector fun ys : List ℚ => ys.getD 0 0 * ys.getD 1 0 ^ 2 + ys.getD 2 0, .betweenValues,
          .fixed [], Crew.single⟩
        (Argument.ofReals (List.ofFn ![2, 3, 5])) (Argument.ofReals (List.ofFn ![7, 1 / 2, 11]))).perform
        (Session.after [])).1
      = ((MultivariateEvaluator.valueWithBandwidth
        ⟨.held [false, true, false] [2, 3, 5]
          (.ofVector fun ys : List ℚ => ys.getD 0 0 * ys.getD 1 0 ^ 2 + ys.getD 2 0),
          .single .twoPointBackward, .fixed [], Crew.single⟩
        (Argument.ofReals [3]) (Argument.ofReals [1 / 2])).perform (Session.after [])).1 := by
  let : Memory := .ample
  let : FractionalPower := ⟨fun _ _ => 0⟩
  have hinserted : ValuesInserted [false, true, false] (Tensor.single .twoPointBackward).axes
      Tensor.betweenValues.axes :=
    .value rfl (.own _ (.value rfl .nil))
  obtain ⟨hexact, hvalue⟩ := exact_eq_and_value_eq hinserted
  refine ⟨hinserted, hexact Float [] [], ?_⟩
  exact hvalue [] [] _ (.fixed []) (.fixed []) Crew.single Crew.single ![2, 3, 5] ![7, 1 / 2, 11]
    (fun a : Fin 3 => by fin_cases a <;> norm_num)

end FiniteDifference
