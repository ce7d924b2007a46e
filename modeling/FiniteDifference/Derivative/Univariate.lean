import FiniteDifference.Evaluation
import FiniteDifference.Sampling

/-!
# Derivatives of functions of one variable

A function is sampled where the coefficients of a stencil are not zero, so that a central first
derivative does not need the value at the point itself, and the samples are evaluated on the grid.
-/

namespace FiniteDifference.Univariate

variable [Memory] {α : Type} [Scalar α]

/-- The offsets at which a stencil has a nonzero coefficient. -/
def sampledOffsets (s : Stencil) (exact : List Rat) : List Int :=
  ((s.offsets.zip exact).filter fun (_, c) => c ≠ 0).map (·.1)

/-- The point at an offset. -/
def pointAt (x h : α) (o : Int) : Point α :=
  .number (x + Scalar.nearest (o : Rat) * h)

/-- Puts the samples where the coefficients are not zero, and zero elsewhere. -/
def spread : List Rat → List α → List α
  | [], _ => []
  | c :: exact, samples =>
    if c ≠ 0 then
      match samples with
      | y :: rest => y :: spread exact rest
      | [] => Scalar.zero :: spread exact []
    else Scalar.zero :: spread exact samples

/-- **The derivative with a given bandwidth.** -/
def valueWith (f : SampledFunction α) (s : Stencil) (crew : Crew α) (x h : Argument α) :
    Action α α := do
  let x ← Action.ofExcept x.toScalar
  let h ← Action.ofExcept (Validation.requirePositive h "bandwidth")
  let exact ← Cache.exactStencil s
  let samples ← Sampling.values crew f ((sampledOffsets s exact).map (pointAt x h.val))
  Evaluation.grid (.descriptor (.axis s)) (Argument.ofReals (spread exact samples)) (.real h.val)

/-- **The derivative with a chosen bandwidth.** `choose` answers the bandwidth for the point. -/
def valueChoosing (choose : α → Action α (Argument α)) (f : SampledFunction α) (s : Stencil)
    (crew : Crew α) (x : Argument α) : Action α α := do
  let x ← Action.ofExcept x.toScalar
  let h ← Action.ofExcept (Validation.requirePositive (← choose x) "bandwidth")
  Action.note (.using h.val x s)
  valueWith f s crew (.real x) (.real h.val)

/-- Refuses what is no function. -/
def requireFunction (f : SampledFunction α) : Except (Fault α) Unit :=
  if f.isCallable then .ok () else .error (.invalid (.notFunction f.kindName))

/-- The stencil of an evaluator. -/
def requireStencil (a : Argument α) : Except (Fault α) Stencil :=
  match a with
  | .descriptor (.axis s) => .ok s
  | a => .error (.invalid (.notStencil a.kindName))

end FiniteDifference.Univariate
