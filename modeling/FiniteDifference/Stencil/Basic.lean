/-!
# Stencils

A stencil samples a function of one variable on a grid of equidistant points near the point of
interest.  It is determined by the placement of the grid, by the order of the derivative that it
approximates and by the order of its leading error.
-/

namespace FiniteDifference

/-- Where the grid of a stencil lies: ahead of the point of interest, behind it or around it. -/
inductive Placement where
  | forward
  | backward
  | central
  deriving DecidableEq, Repr, Inhabited

/-- **Accepted orders.** Either no derivative is taken and there is no error, or both orders are
positive; around the point the error order is even. -/
def Placement.Accepts (placement : Placement) (order accuracy : Nat) : Prop :=
  (order = 0 ∧ accuracy = 0) ∨
    (0 < order ∧ 0 < accuracy ∧ (placement = .central → accuracy % 2 = 0))

instance (placement : Placement) (order accuracy : Nat) :
    Decidable (placement.Accepts order accuracy) := by
  unfold Placement.Accepts
  infer_instance

/-- **Stencils.** `order` is the order of the derivative and `accuracy` the order of the error. -/
structure Stencil where
  placement : Placement
  order : Nat
  accuracy : Nat
  accepted : placement.Accepts order accuracy
  deriving DecidableEq

namespace Stencil

/-- The number of conditions on the coefficients, the sum of the two orders. -/
def span (s : Stencil) : Nat := s.order + s.accuracy

/-- The number of grid points behind the point of interest. -/
def behind (s : Stencil) : Nat :=
  match s.placement with
  | .forward => 0
  | .backward => s.span - 1
  | .central => (s.span - 1) / 2

/-- The number of grid points ahead of the point of interest. -/
def ahead (s : Stencil) : Nat :=
  match s.placement with
  | .forward => s.span - 1
  | .backward => 0
  | .central => (s.span - 1) / 2

/-- The lowest offset of the grid, in units of the bandwidth. -/
def left (s : Stencil) : Int := -(s.behind : Int)

/-- The highest offset of the grid. -/
def right (s : Stencil) : Int := (s.ahead : Int)

/-- The number of grid points. -/
def length (s : Stencil) : Nat := s.behind + s.ahead + 1

/-- **Offsets.** The contiguous integers from `left` to `right`. -/
def offsets (s : Stencil) : List Int :=
  (List.range s.length).map fun (i : Nat) => s.left + (i : Int)

/-! ## Named stencils -/

/-- The three-point central first derivative. -/
def threePointCentral : Stencil := ⟨.central, 1, 2, by decide⟩

/-- The two-point forward first derivative. -/
def twoPointForward : Stencil := ⟨.forward, 1, 1, by decide⟩

/-- The two-point backward first derivative. -/
def twoPointBackward : Stencil := ⟨.backward, 1, 1, by decide⟩

/-- The five-point central first derivative. -/
def fivePointCentral : Stencil := ⟨.central, 1, 4, by decide⟩

/-- The four-point forward first derivative. -/
def fourPointForward : Stencil := ⟨.forward, 1, 3, by decide⟩

/-- The three-point central second derivative. -/
def threePointCentralSecond : Stencil := ⟨.central, 2, 2, by decide⟩

/-- The stencil that is the value of the function itself. -/
def value : Stencil := ⟨.central, 0, 0, by decide⟩

/-! ## Text -/

/-- The written form of a placement. -/
def placementLabel : Placement → String
  | .forward => "FORWARD"
  | .backward => "BACKWARD"
  | .central => "CENTRAL"

/-- The written form of a stencil. -/
def label (s : Stencil) : String :=
  "StencilDescriptor(" ++ placementLabel s.placement ++ ", derivative_order=" ++ toString s.order ++
    ", error_order=" ++ toString s.accuracy ++ ")"

/-! ## First facts -/

theorem length_pos (s : Stencil) : 0 < s.length := by
  simp [length]

@[simp] theorem length_offsets (s : Stencil) : s.offsets.length = s.length := by
  simp [offsets]

end Stencil

end FiniteDifference
