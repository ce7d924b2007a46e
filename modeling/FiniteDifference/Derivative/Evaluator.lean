import FiniteDifference.Bandwidth.Choice

/-!
# Evaluators

An evaluator joins a function, a stencil, a bandwidth strategy and a crew of workers.
-/

namespace FiniteDifference

variable [Memory] {α : Type} [Scalar α]

/-- **Evaluators for one variable.** -/
structure UnivariateEvaluator (α : Type) [Scalar α] where
  function : SampledFunction α
  stencil : Stencil
  strategy : AxisStrategy α
  crew : Crew α

namespace UnivariateEvaluator

/-- An evaluator from arguments that are checked: the stencil, then the function, then the strategy. -/
def ofArguments (function : SampledFunction α) (descriptor : Argument α)
    (strategy : GivenStrategy α) (crew : Crew α) : Except (Fault α) (UnivariateEvaluator α) := do
  let stencil ← Univariate.requireStencil descriptor
  Univariate.requireFunction function
  match strategy with
  | .axis strategy => return ⟨function, stencil, strategy, crew⟩
  | s => throw (.invalid (.noBandwidth .single s.kindName))

/-- **The derivative at a point.** -/
def value (e : UnivariateEvaluator α) (x : Argument α) : Action α α :=
  Univariate.valueChoosing
    (fun x => e.strategy.choose e.function (.descriptor (.axis e.stencil)) (.real x))
    e.function e.stencil e.crew x

/-- The derivative at a point with a given bandwidth. -/
def valueWithBandwidth (e : UnivariateEvaluator α) (x h : Argument α) : Action α α :=
  Univariate.valueWith e.function e.stencil e.crew x h

end UnivariateEvaluator

/-- **Evaluators for several variables.** -/
structure MultivariateEvaluator (α : Type) [Scalar α] where
  function : SampledFunction α
  stencil : Tensor
  strategy : VectorStrategy α
  crew : Crew α

namespace MultivariateEvaluator

/-- An evaluator from arguments that are checked: the stencil, then the function, then the strategy. -/
def ofArguments (function : SampledFunction α) (descriptor : Argument α)
    (strategy : GivenStrategy α) (crew : Crew α) :
    Except (Fault α) (MultivariateEvaluator α) := do
  let stencil ← Multivariate.requireTensor descriptor
  Univariate.requireFunction function
  match strategy with
  | .vector strategy => return ⟨function, stencil, strategy, crew⟩
  | s => throw (.invalid (.noBandwidth .vector s.kindName))

/-- **The derivative at a point.** -/
def value (e : MultivariateEvaluator α) (point : Argument α) : Action α α :=
  Multivariate.valueChoosing
    (fun x => e.strategy.choose e.function (.descriptor (.tensor e.stencil)) (Argument.ofReals x))
    e.function e.stencil e.crew point

/-- The derivative at a point with given bandwidths. -/
def valueWithBandwidth (e : MultivariateEvaluator α) (point h : Argument α) : Action α α :=
  Multivariate.valueWith e.function e.stencil e.crew point h

/-- The grid points around a point for given bandwidths. -/
def gridPoints (e : MultivariateEvaluator α) (point h : Argument α) :
    Except (Fault α) (List (List α)) :=
  Multivariate.gridPoints e.stencil point h

end MultivariateEvaluator

end FiniteDifference
