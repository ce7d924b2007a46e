import FiniteDifference.Bandwidth.Optimal
import FiniteDifference.Bandwidth.PowerOfTwo
import FiniteDifference.Derivative.Univariate
import FiniteDifference.Derivative.Multivariate

/-!
# Bandwidth strategies

A strategy chooses the bandwidth at a point.  `AxisStrategy` is the type of strategies for one
variable, `VectorStrategy` that of strategies that choose one bandwidth per variable.  Besides the
strategies of the library there are foreign ones, which may sample the function and answer anything.
-/

namespace FiniteDifference

variable {α : Type}

/-! ## Foreign strategies -/

/-- **Consultations.** What a foreign strategy does when it is asked: it answers, fails, or samples the
function and goes on. -/
inductive Consultation (α : Type) where
  | answer (a : Argument α)
  | fail (fault : Fault α)
  | sample (p : Point α) (next : Except (Fault α) (Sample α) → Consultation α)

namespace Consultation

/-- The outcome of a call, whether it failed or not. -/
def attempt (f : SampledFunction α) (p : Point α) : Action α (Except (Fault α) (Sample α)) :=
  ExceptT.mk do return .ok (← (f.call p).run)

/-- Carries a consultation out on a function. -/
def run (f : SampledFunction α) : Consultation α → Action α (Argument α)
  | .answer a => return a
  | .fail fault => Action.fail fault
  | .sample p next => do
    let outcome ← attempt f p
    run f (next outcome)

end Consultation

/-- **Foreign strategies.** A name, a description of the parameters, and a consultation for each
stencil and point. -/
structure Foreign (α : Type) where
  name : String
  detail : String
  consult : Argument α → Argument α → Consultation α

/-- The foreign strategy that always gives the same answer. -/
def Foreign.constant (name detail : String) (answer : Argument α) : Foreign α :=
  ⟨name, detail, fun _ _ => .answer answer⟩

/-! ## Strategies -/

/-- **Constants of the adaptive strategy.** The ratio of the two bandwidths at which the truncation
error is estimated, which is above one, and the factor of a derived trial bandwidth; and both as they
were given. -/
structure AdaptiveConfig (α : Type) [Scalar α] where
  stepRatio : Positive α
  trialScale : Positive α
  one_lt_stepRatio : Scalar.lt Scalar.one stepRatio.val = true
  givenStepRatio : Argument α
  givenTrialScale : Argument α

variable [Scalar α]

/-- **Strategies for one variable.** -/
inductive AxisStrategy (α : Type) [Scalar α] where
  | fixed (h : Positive α)
  | ruleOfThumb (epsilon : Positive α)
  | adaptive (epsilon : Positive α) (trial : Option (Positive α)) (config : AdaptiveConfig α)
  | powerOfTwo (inner : AxisStrategy α)
  | foreign (f : Foreign α)

/-- **Strategies for several variables.** -/
inductive VectorStrategy (α : Type) [Scalar α] where
  | fixed (hs : List (Positive α))
  | axisWise (inner : AxisStrategy α)
  | powerOfTwo (inner : VectorStrategy α)
  | foreign (f : Foreign α)

/-- What is given as a strategy. -/
inductive GivenStrategy (α : Type) [Scalar α] where
  | axis (s : AxisStrategy α)
  | vector (s : VectorStrategy α)
  | other (a : Argument α)

/-! ## Names -/

/-- The name of the kind of a strategy. -/
def AxisStrategy.kindName : AxisStrategy α → String
  | .fixed _ => "FixedUnivariateBandwidthStrategy"
  | .ruleOfThumb _ => "RuleOfThumbUnivariateBandwidthStrategy"
  | .adaptive _ _ _ => "AdaptiveUnivariateBandwidthStrategy"
  | .powerOfTwo _ => "PowerOfTwoUnivariateBandwidthStrategy"
  | .foreign f => f.name

/-- The name of the kind of a strategy. -/
def VectorStrategy.kindName : VectorStrategy α → String
  | .fixed _ => "FixedMultivariateBandwidthStrategy"
  | .axisWise _ => "AxisWiseMultivariateBandwidthStrategy"
  | .powerOfTwo _ => "PowerOfTwoMultivariateBandwidthStrategy"
  | .foreign f => f.name

/-- The name of the kind of what is given as a strategy. -/
def GivenStrategy.kindName : GivenStrategy α → String
  | .axis s => s.kindName
  | .vector s => s.kindName
  | .other a => a.kindName

/-! ## Construction -/

/-- The constant that stands where none is given. -/
def AdaptiveConfig.default : Argument α := .real (Scalar.nearest 2)

/-- The condition error that stands where none is given. -/
def defaultEpsilon : Argument α := .real Scalar.epsilon

/-- The constants of the adaptive strategy; the ratio of the two bandwidths must exceed one. -/
def AdaptiveConfig.ofArguments (stepRatio trialScale : Argument α) :
    Except (Fault α) (AdaptiveConfig α) := do
  let ratio ← Validation.requirePositive stepRatio "step_ratio"
  if h : Scalar.lt Scalar.one ratio.val = true then
    let scale ← Validation.requirePositive trialScale "trial_scale"
    return ⟨ratio, scale, h, stepRatio, trialScale⟩
  else throw (.invalid (.ratioTooSmall ratio.val))

namespace AxisStrategy

/-- A fixed bandwidth. -/
def ofBandwidth (h : Argument α) : Except (Fault α) (AxisStrategy α) := do
  return .fixed (← Validation.requirePositive h "bandwidth")

/-- The rule of thumb, for a condition error. -/
def ofRule (epsilon : Argument α) : Except (Fault α) (AxisStrategy α) := do
  return .ruleOfThumb (← Validation.requirePositive epsilon "epsilon")

/-- The adaptive strategy, for a condition error and perhaps a trial bandwidth. -/
def ofTrial (epsilon trial : Argument α) (config : AdaptiveConfig α) :
    Except (Fault α) (AxisStrategy α) := do
  let epsilon ← Validation.requirePositive epsilon "epsilon"
  match trial with
  | .absent => return .adaptive epsilon none config
  | trial =>
    return .adaptive epsilon (some (← Validation.requirePositive trial "trial_bandwidth")) config

/-- A strategy whose bandwidths are rounded up. -/
def ofInner (inner : GivenStrategy α) : Except (Fault α) (AxisStrategy α) :=
  match inner with
  | .axis s => .ok (.powerOfTwo s)
  | s => .error (.invalid (.notStrategy "underlying_strategy" .single s.kindName))

end AxisStrategy

namespace VectorStrategy

/-- A fixed vector of bandwidths. -/
def ofBandwidths (h : Argument α) : Except (Fault α) (VectorStrategy α) := do
  return .fixed (← Validation.requirePositiveVector h "bandwidth")

/-- A strategy for one variable, applied along each axis. -/
def ofAxis (inner : GivenStrategy α) : Except (Fault α) (VectorStrategy α) :=
  match inner with
  | .axis s => .ok (.axisWise s)
  | s => .error (.invalid (.notStrategy "univariate_strategy" .single s.kindName))

/-- A strategy whose bandwidths are rounded up. -/
def ofInner (inner : GivenStrategy α) : Except (Fault α) (VectorStrategy α) :=
  match inner with
  | .vector s => .ok (.powerOfTwo s)
  | s => .error (.invalid (.notStrategy "underlying_strategy" .vector s.kindName))

end VectorStrategy

end FiniteDifference
