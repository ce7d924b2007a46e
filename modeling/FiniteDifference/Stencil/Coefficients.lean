import FiniteDifference.Stencil.Tensor

/-!
# Stencil coefficients

The exact coefficients of a stencil are the ones whose moments select a Taylor term: with offsets
`o` and coefficients `c`, the sum of `c * o ^ k` is the factorial of the derivative order at that
power and zero at every other power below the number of points.  They are read off the Lagrange
basis of the grid.
-/

namespace FiniteDifference.Coefficients

/-! ## Polynomials

A polynomial is the list of its coefficients, the constant one first. -/

/-- The product of a polynomial with the linear factor that vanishes at `root`. -/
def timesRoot (root : Int) (p : List Int) : List Int :=
  List.zipWith (· - ·) (0 :: p) (p.map (root * ·) ++ [0])

/-- The monic polynomial with the given roots. -/
def withRoots (roots : List Int) : List Int :=
  roots.foldr timesRoot [1]

/-- The product of the distances of a number from others. -/
def separation (o : Int) (others : List Int) : Int :=
  others.foldr (fun other rest => (o - other) * rest) 1

/-- The factorial. -/
def factorial : Nat → Nat
  | 0 => 1
  | n + 1 => (n + 1) * factorial n

/-! ## Univariate coefficients -/

/-- **One coefficient.** The factorial of `order` times the coefficient at that power of the Lagrange
basis polynomial that is one at `o` and zero at the other offsets. -/
def weight (offsets : List Int) (order : Nat) (o : Int) : Rat :=
  let others := offsets.filter (· ≠ o)
  ((factorial order : Int) * (withRoots others).getD order 0 : Int) / (separation o others : Rat)

/-- **Solving a grid.** The coefficients over arbitrary offsets, none when an offset is repeated. -/
def solve? (offsets : List Int) (order : Nat) : Option (List Rat) :=
  if offsets.Nodup then some (offsets.map (weight offsets order)) else none

/-! ## Moments -/

/-- The moment of the coefficients at a power. -/
def moment : List Int → List Rat → Nat → Rat
  | o :: offsets, c :: coefficients, k => c * (o : Rat) ^ k + moment offsets coefficients k
  | _, _, _ => 0

/-- **Moments.** The moments at the powers from zero to a greatest one. -/
def moments (offsets : List Int) (coefficients : List Rat) (greatest : Int) : List Rat :=
  (List.range (greatest + 1).toNat).map (moment offsets coefficients)

/-- The greatest power at which a nonzero moment is looked for. -/
def searchBound (s : Stencil) : Nat := 2 * s.length + s.order + 2

/-- **Truncation order.** The distance from the derivative order to the first nonzero moment above
it, none if there is no such moment up to the search bound. -/
def truncationOrder? (s : Stencil) (coefficients : List Rat) : Option Nat :=
  (((List.range (searchBound s - s.order)).map (· + 1)).find? fun n =>
    moment s.offsets coefficients (s.order + n) ≠ 0)

/-! ## Tensor coefficients -/

/-- **Outer product.** The products of one entry of each row, in row-major order. -/
def outer : List (List Rat) → List Rat
  | [] => [1]
  | row :: rows =>
    let rest := outer rows
    row.flatMap fun c => rest.map (c * ·)

/-- **Tensor coefficients.** The outer product of the rows cut to the axis lengths, none if a row is
shorter than its axis. -/
def tensorProduct? (lengths : List Nat) (rows : List (List Rat)) : Option (List Rat) :=
  if (lengths.zip rows).all (fun (n, row) => n ≤ row.length) then
    some (outer ((lengths.zip rows).map fun (n, row) => row.take n))
  else none

end FiniteDifference.Coefficients
