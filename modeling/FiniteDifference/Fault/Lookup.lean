import FiniteDifference.Fault.Basic
import FiniteDifference.Position

/-!
# Lookups

Elements of lists at an index of any size, with the faults of an index that points at none.
-/

namespace FiniteDifference

/-- The fault of an index that points at no element: `outside`, unless the index lies beyond all sizes
that can be counted. -/
def IndexFault.ofIndex (outside : IndexFault) (i : Int) : IndexFault :=
  if RowMajor.isIndex i then outside else .tooLarge

/-- **Picking an element.** -/
def pick {α β : Type} (items : List β) (i : Int) (outside : IndexFault) : Except (Fault α) β :=
  match (place? items.length i).bind (items[·]?) with
  | some b => .ok b
  | none => .error (.index (outside.ofIndex i))

end FiniteDifference
