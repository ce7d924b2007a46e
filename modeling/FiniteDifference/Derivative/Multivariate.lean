import FiniteDifference.Evaluation
import FiniteDifference.Sampling

/-!
# Derivatives of functions of several variables

A function is sampled at every point of the grid of a tensor stencil, in row-major order, and the
samples are evaluated on the grid.
-/

namespace FiniteDifference.Multivariate

variable [Memory] {α : Type} [Scalar α]

/-- The coordinates of the grid point with a multi-index. -/
def coordinates (x h : List α) (lefts : List Int) (index : List Nat) : List α :=
  List.zipWith (· + ·) x
    (List.zipWith (· * ·) h
      (List.zipWith (fun (left : Int) (i : Nat) =>
        Scalar.nearest (left : Rat) + Scalar.nearest (i : Rat)) lefts index))

/-- **One write.** The grid point with a multi-index goes to its linear position. -/
def write (t : Tensor) (x h : List α) (points : List (List α)) (visited : List Nat × Nat) :
    List (List α) :=
  points.set visited.2 (coordinates x h t.lefts visited.1)

/-- **Grid points.** A list that holds the point itself at every position is overwritten with the points of the
grid around it, in row-major order. -/
def points (t : Tensor) (x h : List α) : List (List α) :=
  (RowMajor.traversal t.lengths).foldl (write t x h) (List.replicate (RowMajor.size t.lengths) x)

/-- The grid points for arguments that are checked first.  The lowest offsets must lie in the range of the
scalars and the number of grid points below the bound of all sizes. -/
def gridPoints (t : Tensor) (point bandwidth : Argument α) : Except (Fault α) (List (List α)) := do
  let x ← Validation.requirePoint point "point"
  let h ← Validation.requirePositiveVector bandwidth "bandwidth"
  Validation.checkSize x.length t.dimension "point dimension"
  Validation.checkSize h.length t.dimension "bandwidth dimension"
  let _ ← t.lefts.mapM (Argument.scalarOfInt (α := α))
  let _ ← RowMajor.countedSize t.lengths
  return points t x (h.map (·.val))

/-- **The derivative with given bandwidths.** -/
def valueWith (f : SampledFunction α) (t : Tensor) (crew : Crew α) (point bandwidth : Argument α) :
    Action α α := do
  let points ← Action.ofExcept (gridPoints t point bandwidth)
  let samples ← Sampling.values crew f (points.map Point.vector)
  Evaluation.grid (.descriptor (.tensor t)) (Argument.ofReals samples) bandwidth

/-- **The derivative with chosen bandwidths.** `choose` answers the bandwidths for the point. -/
def valueChoosing (choose : List α → Action α (Argument α)) (f : SampledFunction α) (t : Tensor)
    (crew : Crew α) (point : Argument α) : Action α α := do
  let x ← Action.ofExcept (Validation.requirePoint point "point")
  Action.ofExcept (Validation.checkSize x.length t.dimension "point dimension")
  let h ← Action.ofExcept (Validation.requirePositiveVector (← choose x) "bandwidth")
  let hs := h.map (·.val)
  Action.note (.usingVector hs x)
  valueWith f t crew (Argument.ofReals x) (Argument.ofReals hs)

/-- The tensor stencil of an evaluator. -/
def requireTensor (a : Argument α) : Except (Fault α) Tensor :=
  match a with
  | .descriptor (.tensor t) => .ok t
  | a => .error (.invalid (.notTensor a.kindName))

end FiniteDifference.Multivariate
