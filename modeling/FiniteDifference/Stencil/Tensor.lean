import FiniteDifference.Stencil.Basic
import FiniteDifference.Stencil.RowMajor

/-!
# Tensor stencils

A stencil for functions of several variables is the tensor product of one stencil per variable.  A
`Descriptor` is a stencil of either kind.
-/

namespace FiniteDifference

/-- **Tensor stencils.** One stencil per axis and at least one axis. -/
structure Tensor where
  axes : List Stencil
  axes_ne_nil : axes ≠ []
  deriving DecidableEq

namespace Tensor

/-- The number of variables. -/
def dimension (t : Tensor) : Nat := t.axes.length

/-- The number of grid points along each axis. -/
def lengths (t : Tensor) : List Nat := t.axes.map Stencil.length

/-- The order of the derivative along each axis. -/
def orders (t : Tensor) : List Nat := t.axes.map Stencil.order

/-- The number of grid points. -/
def size (t : Tensor) : Nat := RowMajor.size t.lengths

/-- The lowest offset along each axis. -/
def lefts (t : Tensor) : List Int := t.axes.map Stencil.left

/-- The written form of a tensor stencil. -/
def label (t : Tensor) : String :=
  "MultivariateStencilDescriptor(" ++ String.intercalate ", " (t.axes.map Stencil.label) ++ ")"

end Tensor

/-- A stencil for one variable or for several. -/
inductive Descriptor where
  | axis (s : Stencil)
  | tensor (t : Tensor)
  deriving DecidableEq

namespace Descriptor

/-- The stencils along the axes. -/
def axes : Descriptor → List Stencil
  | .axis s => [s]
  | .tensor t => t.axes

/-- The written form of a stencil of either kind. -/
def label : Descriptor → String
  | .axis s => s.label
  | .tensor t => t.label

end Descriptor

end FiniteDifference
