import FiniteDifference.Bandwidth.Strategy
import FiniteDifference.Stencil.Construction

/-!
# Choosing bandwidths

The bandwidth that each strategy answers for a function, a stencil and a point.
-/

namespace FiniteDifference

variable [Memory] {α : Type} [Scalar α]

/-! ## The rule of thumb -/

/-- **Rule of thumb.** The optimal bandwidth for samples of magnitude one and a truncation coefficient
that is the greater of one and the distance of the point from zero.  A stencil that takes no derivative
has the bandwidth one. -/
def RuleOfThumb.choose (epsilon : Positive α) (descriptor x : Argument α) : Action α α := do
  let s ← Action.ofExcept descriptor.stencil
  if s.order = 0 then return Scalar.one
  let x ← Action.ofExcept x.toScalar
  let norm ← Cache.norm descriptor
  let h ← Action.ofExcept
    (Optimal.ofStencil s (Scalar.atLeastOne (Scalar.abs x)) epsilon.val norm Scalar.one)
  return (← Action.ofExcept (Validation.positive h "rule-of-thumb bandwidth")).val

/-! ## The adaptive strategy -/

namespace Adaptive

/-- The derivative with a fixed bandwidth. -/
def derivative (f : SampledFunction α) (descriptor x : Argument α) (h : α) : Action α α := do
  let h ← Action.ofExcept (Validation.positive h "bandwidth")
  let s ← Action.ofExcept (Univariate.requireStencil descriptor)
  Action.ofExcept (Univariate.requireFunction f)
  Univariate.valueChoosing (fun _ => return .real h.val) f s Crew.single x

/-- **Truncation coefficient.** The coefficient of the leading error, estimated from the derivatives
`d₁` and `d₂` with two bandwidths `h₁` and `h₂` as `(d₂ - d₁) / (h₁ ^ n - h₂ ^ n)`. -/
def truncationCoefficient (config : AdaptiveConfig α) (f : SampledFunction α)
    (descriptor x trial : Argument α) : Action α α := do
  let h₂ ← Action.ofExcept (Validation.requirePositive trial "trial_bandwidth")
  let h₁ := h₂.val * config.stepRatio.val
  let d₁ ← derivative f descriptor x h₁
  let d₂ ← derivative f descriptor x h₂.val
  let s ← Action.ofExcept (Univariate.requireStencil descriptor)
  let p₁ ← Action.ofExcept (Evaluation.power h₁ s.accuracy (.tooLarge .function))
  let p₂ ← Action.ofExcept (Evaluation.power h₂.val s.accuracy (.tooLarge .function))
  Action.ofExcept (Evaluation.quotient (d₂ - d₁) (p₁ - p₂))

/-- **Trial bandwidth.** The given one, or the rule of thumb rounded up to a power of two and scaled. -/
def trialBandwidth (epsilon : Positive α) (trial : Option (Positive α)) (config : AdaptiveConfig α)
    (descriptor x : Argument α) : Action α α := do
  match trial with
  | some h => return h.val
  | none =>
    let h ← RuleOfThumb.choose epsilon descriptor x
    return (← Action.ofExcept (PowerOfTwo.roundUp (.real h))) * config.trialScale.val

/-- **Adaptive bandwidth.** The optimal bandwidth for the estimated truncation coefficient and the
magnitude of the function at the point.  The trial bandwidth stays if the coefficient is below the
machine epsilon or if the function vanishes at the point. -/
def choose (epsilon : Positive α) (trial : Option (Positive α)) (config : AdaptiveConfig α)
    (f : SampledFunction α) (descriptor x : Argument α) : Action α α := do
  let s ← Action.ofExcept descriptor.stencil
  if s.order = 0 then return Scalar.one
  let h₂ ← trialBandwidth epsilon trial config descriptor x
  let coefficient := Scalar.abs (← truncationCoefficient config f descriptor x (.real h₂))
  if Scalar.lt coefficient Scalar.epsilon then
    Action.note (.negligible coefficient x h₂)
    return h₂
  let samples ← Sampling.valuesAt Crew.single f [x]
  let magnitude := Scalar.abs (samples.headD Scalar.missing)
  if Scalar.isZero magnitude then
    Action.note (.vanishing x h₂)
    return h₂
  let norm ← Cache.norm descriptor
  let h ← Action.ofExcept
    (Optimal.ofStencil s (Scalar.one / coefficient) epsilon.val norm magnitude)
  return (← Action.ofExcept (Validation.positive h "adaptive bandwidth")).val

end Adaptive

/-! ## Strategies for one variable -/

/-- **The bandwidth of a strategy.** A foreign strategy may answer anything; every other answers a
number. -/
def AxisStrategy.choose (f : SampledFunction α) (descriptor x : Argument α) :
    AxisStrategy α → Action α (Argument α)
  | .fixed h => return .real h.val
  | .ruleOfThumb epsilon => do return .real (← RuleOfThumb.choose epsilon descriptor x)
  | .adaptive epsilon trial config => do
    return .real (← Adaptive.choose epsilon trial config f descriptor x)
  | .powerOfTwo inner => do
    let h ← inner.choose f descriptor x
    return .real (← Action.ofExcept (PowerOfTwo.roundUp h))
  | .foreign g => (g.consult descriptor x).run f

/-! ## Strategies for several variables -/

namespace VectorStrategy

/-- The name of the bandwidth of an axis. -/
def axisName (axis : Nat) : String := "bandwidth[" ++ toString axis ++ "]"

/-- The bandwidths of the axes from a given one on, each for the slice of the function through the
point along that axis. -/
def chooseAlong (inner : AxisStrategy α) (f : SampledFunction α) (point : List α) :
    Nat → List (Stencil × α) → Action α (List α)
  | _, [] => return []
  | axis, (s, x) :: rest => do
    let answer ← inner.choose (.slice f axis point) (.descriptor (.axis s)) (.real x)
    let h ← Action.ofExcept (Validation.requirePositive answer (axisName axis))
    return h.val :: (← chooseAlong inner f point (axis + 1) rest)

/-- One bandwidth per axis of a tensor stencil. -/
def choosePerAxis (inner : AxisStrategy α) (f : SampledFunction α) (descriptor point : Argument α) :
    Action α (List α) := do
  let point ← Action.ofExcept (Validation.requirePoint point "point")
  let t ← Action.ofExcept descriptor.tensor
  Action.ofExcept (Validation.checkSize point.length t.dimension "point dimension")
  chooseAlong inner f point 0 (t.axes.zip point)

/-- The fixed bandwidths, for a point and a tensor stencil with as many variables. -/
def chooseFixed (hs : List (Positive α)) (descriptor point : Argument α) :
    Except (Fault α) (List α) := do
  let point ← Validation.requirePoint point "point"
  Validation.checkSize point.length hs.length "point dimension"
  match descriptor with
  | .absent => pure ()
  | descriptor =>
    Validation.checkSize (← descriptor.tensor).dimension hs.length "descriptor dimension"
  return hs.map (·.val)

/-- **The bandwidths of a strategy.** -/
def choose (f : SampledFunction α) (descriptor point : Argument α) :
    VectorStrategy α → Action α (Argument α)
  | .fixed hs => do
    return Argument.ofReals (← Action.ofExcept (chooseFixed hs descriptor point))
  | .axisWise inner => do
    return Argument.ofReals (← choosePerAxis inner f descriptor point)
  | .powerOfTwo inner => do
    let h ← choose f descriptor point inner
    return Argument.ofReals (← Action.ofExcept (PowerOfTwo.roundUpAll h))
  | .foreign g => (g.consult descriptor point).run f

end VectorStrategy

/-! ## Strategies as they are given -/

namespace GivenStrategy

/-- A missing method of what is given as a strategy. -/
def noMethod (s : GivenStrategy α) (name : String) : Fault α :=
  .attribute (.none s.kindName name)

/-- The bandwidth of what must be a strategy for one variable. -/
def chooseNumber (f : SampledFunction α) (descriptor x : Argument α) :
    GivenStrategy α → Action α (Argument α)
  | .axis s => s.choose f descriptor x
  | s => Action.fail (s.noMethod "get_bandwidth")

/-- The bandwidths of what must be a strategy for several variables. -/
def chooseVector (f : SampledFunction α) (descriptor point : Argument α) :
    GivenStrategy α → Action α (Argument α)
  | .vector s => s.choose f descriptor point
  | s => Action.fail (s.noMethod "get_bandwidth_vector")

/-- The fixed vector of a strategy that has one. -/
def fixedVector? : GivenStrategy α → Option (List α)
  | .vector (.fixed hs) => some (hs.map (·.val))
  | _ => none

/-- The trial bandwidth of what must be the adaptive strategy. -/
def trialBandwidth (descriptor x : Argument α) : GivenStrategy α → Action α α
  | .axis (.adaptive epsilon trial config) =>
    Adaptive.trialBandwidth epsilon trial config descriptor x
  | s => Action.fail (s.noMethod "get_trial_bandwidth")

/-- The truncation coefficient that what must be the adaptive strategy estimates. -/
def truncationCoefficient (f : SampledFunction α) (descriptor x trial : Argument α) :
    GivenStrategy α → Action α α
  | .axis (.adaptive _ _ config) => Adaptive.truncationCoefficient config f descriptor x trial
  | s => Action.fail (s.noMethod "estimate_truncation_coefficient")

end GivenStrategy

end FiniteDifference
