import FiniteDifference.Argument.Number
import FiniteDifference.Stencil.RowMajor

/-!
# Arrays as arguments

An array of numbers is handed on as nested lists, one level per axis.
-/

namespace FiniteDifference

variable {α : Type}

/-- **Slabs.** Cuts a list into a number of pieces of one size. -/
def slabs {β : Type} (size : Nat) : Nat → List β → List (List β)
  | 0, _ => []
  | count + 1, xs => xs.take size :: slabs size count (xs.drop size)

namespace Argument

/-- The nested lists with given axis lengths and leaves. -/
def nest : List Nat → List (Argument α) → Argument α
  | [], leaves => leaves.headD .absent
  | n :: shape, leaves => .list ((slabs (RowMajor.size shape) n leaves).map (nest shape))

/-- **Arrays as arguments.** -/
def ofBlock (b : Block α) : Argument α := nest b.shape (b.entries.map .real)

end Argument

end FiniteDifference
