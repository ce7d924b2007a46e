import FiniteDifference.Stencil.Coefficients
import FiniteDifference.Stencil.Indexing

/-!
# Filling a tensor

The coefficients of a tensor stencil, computed entry by entry.  A list of zeros is made, a traversal visits
all multi-indices, and the entry at each of them is written to its linear position.
-/

namespace FiniteDifference.Coefficients

variable {α : Type}

/-- **One entry.** A number times the entries of the rows at a multi-index, one axis after the other.  An
index beyond the end of its row is a fault. -/
def productFrom (product : Rat) : List (List Rat) → List Nat → Except (Fault α) Rat
  | _, [] => .ok product
  | [], _ :: _ => .error (.index .list)
  | row :: rows, i :: index =>
    match row[i]? with
    | some c => productFrom (product * c) rows index
    | none => .error (.index .tuple)

/-- **One write.** The entry at a multi-index goes to its linear position. -/
def write (rows : List (List Rat)) (flat : List Rat) (visited : List Nat × Nat) :
    Except (Fault α) (List Rat) := do
  return flat.set visited.2 (← productFrom 1 rows visited.1)

/-- **Filling.** The size must be one that can be counted; the entries are written in row-major order. -/
def filled (lengths : List Nat) (rows : List (List Rat)) : Except (Fault α) (List Rat) := do
  let size ← RowMajor.countedSize lengths
  (RowMajor.traversal lengths).foldlM (write rows) (List.replicate size 0)

end FiniteDifference.Coefficients
