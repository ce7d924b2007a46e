import FiniteDifference.Fault.Told
import FiniteDifference.Stencil.Coefficients

/-!
# The linear system of a grid

The coefficients over a grid solve a square system of linear equations, one for each power below the number
of offsets.  `ofGridBy` builds this system and leaves its solution to a solver.
-/

namespace FiniteDifference.Coefficients

variable {α : Type}

/-- A row of numbers and the rows below it, each of which is the one above multiplied by the offsets. -/
def powerRows (offsets : List Int) : Nat → List Rat → List (List Rat)
  | 0, _ => []
  | count + 1, row =>
    row :: powerRows offsets count
      (List.zipWith (fun value (o : Int) => value * (o : Rat)) row offsets)

/-- **The matrix of a grid.** As many rows as there are offsets, the first of which is all ones. -/
def systemRows (offsets : List Int) : List (List Rat) :=
  powerRows offsets offsets.length (List.replicate offsets.length 1)

/-- The right-hand side of the system: one at the order of the derivative and zero elsewhere. -/
def selection (size order : Nat) : List Rat := (List.replicate size 0).set order 1

/-- **Solvers.** A solver of square systems takes the rows of the matrix and the right-hand side; it finds
no solution if it finds the matrix singular. -/
abbrev Solver := List (List Rat) → List Rat → Option (List Rat)

/-- **Coefficients by a solver.** The solution of the system times the factorial of the order.  The order
must be a place of the right-hand side. -/
def ofGridBy (solver : Solver) (offsets : List Int) (order : Nat) (label : String) :
    Except (Fault α) (List Rat) :=
  if order < offsets.length then
    match solver (systemRows offsets) (selection offsets.length order) with
    | some solution => .ok (solution.map (· * (factorial order : Rat)))
    | none => .error (.singular label)
  else .error (.told (.index (.term order)))

end FiniteDifference.Coefficients
