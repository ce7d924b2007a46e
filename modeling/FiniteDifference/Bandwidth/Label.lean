import FiniteDifference.Bandwidth.Strategy
import FiniteDifference.Argument.Written
import FiniteDifference.Scalar.Binary64

/-!
# Written strategies

The written form of bandwidth strategies in double precision.
-/

namespace FiniteDifference

/-- The constants of the adaptive strategy as they were given. -/
def AdaptiveConfig.label (c : AdaptiveConfig Float) : String :=
  "AdaptiveBandwidthConfig(step_ratio=" ++ c.givenStepRatio.inspect ++ ", trial_scale=" ++
    c.givenTrialScale.inspect ++ ")"

/-- An optional number. -/
def writeOptional : Option (Positive Float) → String
  | some x => writeReal x.val
  | none => "None"

/-- **Written strategy.** -/
def AxisStrategy.label : AxisStrategy Float → String
  | .fixed h => "FixedUnivariateBandwidthStrategy(" ++ writeReal h.val ++ ")"
  | .ruleOfThumb epsilon =>
    "RuleOfThumbUnivariateBandwidthStrategy(epsilon=" ++ writeReal epsilon.val ++ ")"
  | .adaptive epsilon trial config =>
    "AdaptiveUnivariateBandwidthStrategy(epsilon=" ++ writeReal epsilon.val ++ ", trial_bandwidth=" ++
      writeOptional trial ++ ", config=" ++ config.label ++ ")"
  | .powerOfTwo inner => "PowerOfTwoUnivariateBandwidthStrategy(" ++ inner.label ++ ")"
  | .foreign f => f.name ++ "(" ++ f.detail ++ ")"

/-- **Written strategy.** -/
def VectorStrategy.label : VectorStrategy Float → String
  | .fixed hs => "FixedMultivariateBandwidthStrategy(" ++ writeReals (hs.map (·.val)) ++ ")"
  | .axisWise inner => "AxisWiseMultivariateBandwidthStrategy(" ++ inner.label ++ ")"
  | .powerOfTwo inner => "PowerOfTwoMultivariateBandwidthStrategy(" ++ inner.label ++ ")"
  | .foreign f => f.name ++ "(" ++ f.detail ++ ")"

/-- The written form of what is given as a strategy. -/
def GivenStrategy.label : GivenStrategy Float → String
  | .axis s => s.label
  | .vector s => s.label
  | .other a => a.inspect

end FiniteDifference
