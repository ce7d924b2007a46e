import FiniteDifference.Fault.Lookup
import FiniteDifference.Validation

/-!
# Building stencils

Stencils from arguments of any kind.
-/

namespace FiniteDifference

variable {α : Type}

/-! ## Stencils of one variable -/

/-- **Stencils from orders.** -/
def Stencil.ofOrders (placement : Placement) (order accuracy : Int) : Except (Fault α) Stencil :=
  if order < 0 then .error (.refusal (.negativeOrder order))
  else if 0 < order ∧ accuracy ≤ 0 then .error (.refusal (.accuracyNotPositive accuracy))
  else if order = 0 ∧ accuracy ≠ 0 then .error (.refusal (.accuracyNotZero accuracy))
  else if placement = .central ∧ accuracy % 2 ≠ 0 then .error (.refusal (.accuracyOdd accuracy))
  else
    if h : placement.Accepts order.toNat accuracy.toNat then
      .ok ⟨placement, order.toNat, accuracy.toNat, h⟩
    else .error (.refusal (.accuracyNotPositive accuracy))

/-- What is given as the placement of a stencil. -/
inductive GivenPlacement (α : Type) where
  | placement (p : Placement)
  | other (given : Argument α)

/-- **Stencils from arguments.** The placement is checked first, then the kinds of the orders, then
the orders themselves. -/
def Stencil.ofArguments (placement : GivenPlacement α) (order accuracy : Argument α) :
    Except (Fault α) Stencil :=
  match placement with
  | .other given => .error (.refusal (.notPlacement given))
  | .placement p => do
    let order ← Validation.requireInteger order "derivative_order"
    let accuracy ← Validation.requireInteger accuracy "error_order"
    Stencil.ofOrders p order accuracy

/-! ## Tensor stencils -/

/-- The stencils of a list of arguments whose first has a given index. -/
def Tensor.axesOfArguments : Nat → List (Argument α) → Except (Fault α) (List Stencil)
  | _, [] => .ok []
  | i, .descriptor (.axis s) :: rest => (axesOfArguments (i + 1) rest).map (s :: ·)
  | i, a :: _ => .error (.invalid (.notAxis i a.kindName))

/-- A single list in place of several arguments stands for its elements. -/
def Tensor.unpack : List (Argument α) → List (Argument α)
  | [.list items] => items
  | arguments => arguments

/-- **Tensor stencils from arguments.** -/
def Tensor.ofArguments (arguments : List (Argument α)) : Except (Fault α) Tensor := do
  let axes ← Tensor.axesOfArguments 0 (Tensor.unpack arguments)
  if h : axes ≠ [] then return ⟨axes, h⟩
  else throw (.invalid .noAxes)

/-- The axis at a position; negative positions count from the end. -/
def Tensor.axisAt (t : Tensor) (i : Int) : Except (Fault α) Stencil :=
  pick t.axes i .tuple

/-- **The axis with a given index.** Truth values are indices too. -/
def Tensor.axis (t : Tensor) (index : Argument α) : Except (Fault α) Stencil :=
  match index with
  | .bool b => t.axisAt (if b then 1 else 0)
  | .int i => t.axisAt i
  | a => .error (.unsuitable (.notAnIndex a.kindName))

/-! ## Stencils of either kind -/

/-- The fault of assigning a field of a stencil: no field can be assigned. -/
def Descriptor.assign (d : Descriptor) (field : String) : Fault α :=
  match d with
  | .axis _ => .frozen field
  | .tensor _ => .attribute .immutable

/-- The stencil of an argument, which must have a derivative order. -/
def Argument.stencil (a : Argument α) : Except (Fault α) Stencil :=
  match a with
  | .descriptor (.axis s) => .ok s
  | a => .error (a.noAttribute "derivative_order")

/-- The tensor stencil of an argument, which must have a dimension. -/
def Argument.tensor (a : Argument α) : Except (Fault α) Tensor :=
  match a with
  | .descriptor (.tensor t) => .ok t
  | a => .error (a.noAttribute "dimension")

/-- **Places of first occurrence.** For each argument the index of the first one that is equal to
it, itself included; arguments that cannot be keys are refused in order. -/
def Argument.firstEqual [Scalar α] (arguments : List (Argument α)) :
    Except (Fault α) (List Nat) :=
  let rec place (seen : List (Argument α)) : List (Argument α) → Except (Fault α) (List Nat)
    | [] => .ok []
    | a :: rest =>
      if a.isHashable then
        let first := (seen.findIdx? fun b => Argument.equal b a).getD seen.length
        (place (seen ++ [a]) rest).map (first :: ·)
      else .error (.unsuitable (.notHashable a.kindName))
  place [] arguments

end FiniteDifference
