import FiniteDifference.Proofs.Cache.Confined
import FiniteDifference.Proofs.Cache.Transparency
import FiniteDifference.Proofs.Evaluation.Outcome

/-!
# Strategies are confined

A strategy for one variable calls nothing but the function that it is given: if every call of the function is
confined to some points, so is the choice of a bandwidth, whatever the function answers.
-/

open FiniteDifference.Action

namespace FiniteDifference

variable [Memory] {α τ β : Type} [Scalar α] {P : Point α → Prop}

/-! ## Parts without calls -/

theorem Cache.confined_norm (a : Argument α) : Confined P (norm a) :=
  .bind (.silent (yields_coefficients a)) fun _ => .pure _

theorem RuleOfThumb.confined_choose (epsilon : Positive α) (descriptor x : Argument α) :
    Confined P (choose epsilon descriptor x) :=
  .bind (.ofExcept _) fun _ => .ite (.pure _) <| .bind (.ofExcept _) fun _ =>
    .bind (Cache.confined_norm descriptor) fun _ => .bind (.ofExcept _) fun _ =>
      .bind (.ofExcept _) fun _ => .pure _

/-- A trial bandwidth calls no function. -/
theorem Adaptive.confined_trialBandwidth (epsilon : Positive α) (trial : Option (Positive α))
    (config : AdaptiveConfig α) (descriptor x : Argument α) :
    Confined P (trialBandwidth epsilon trial config descriptor x) := by
  cases trial with
  | some h => exact .pure _
  | none =>
    exact .bind (RuleOfThumb.confined_choose epsilon descriptor x) fun _ =>
      .bind (.ofExcept _) fun _ => .pure _

/-! ## Sampling -/

/-- Confined tasks may be shared among workers. -/
theorem Workers.confined_execute {task : τ → Action α β} (h : ∀ t, Confined P (task t))
    (workers : Int) (tasks : List τ) : Confined P (execute workers id task tasks) := by
  by_cases hw : 1 < workers
  · rw [execute_of_several hw]
    exact .bind (.mapM (fun t => (h t).attempt) tasks) fun _ => .ofExcept _
  · rw [execute_of_single hw]
    exact .mapM h tasks

variable {f : SampledFunction α} (hf : ∀ p, Confined P (f.call p))
include hf

theorem Sampling.confined_values (crew : Crew α) (points : List (Point α)) :
    Confined P (values crew f points) :=
  .ite (.pure _) <| .bind (.ofExcept _) fun workers =>
    .bind (Workers.confined_execute hf workers points) fun _ => .ofExcept _

/-- A derivative with a given bandwidth calls nothing but its function. -/
theorem Univariate.confined_valueWith (s : Stencil) (crew : Crew α) (x h : Argument α) :
    Confined P (valueWith f s crew x h) :=
  .bind (.ofExcept _) fun _ => .bind (.ofExcept _) fun _ =>
    .bind (.silent (Cache.yields_exactStencil s)) fun _ =>
      .bind (Sampling.confined_values hf crew _) fun _ =>
        .silent (Evaluation.yields_grid (.axis s) _ _)

namespace Adaptive

theorem confined_derivative (descriptor x : Argument α) (h : α) :
    Confined P (derivative f descriptor x h) :=
  .bind (.ofExcept _) fun _ => .bind (.ofExcept _) fun s => .bind (.ofExcept _) fun _ =>
    .bind (.ofExcept _) fun _ => .bind (.pure _) fun _ => .bind (.ofExcept _) fun _ =>
      .bind (.note _) fun _ => Univariate.confined_valueWith hf s Crew.single _ _

/-- An estimate of the truncation coefficient calls nothing but its function. -/
theorem confined_truncationCoefficient (config : AdaptiveConfig α)
    (descriptor x trial : Argument α) :
    Confined P (truncationCoefficient config f descriptor x trial) :=
  .bind (.ofExcept _) fun _ => .bind (confined_derivative hf descriptor x _) fun _ =>
    .bind (confined_derivative hf descriptor x _) fun _ => .bind (.ofExcept _) fun _ =>
      .bind (.ofExcept _) fun _ => .bind (.ofExcept _) fun _ => .ofExcept _

/-- Nor does the adaptive strategy. -/
theorem confined_choose (epsilon : Positive α) (trial : Option (Positive α))
    (config : AdaptiveConfig α) (descriptor x : Argument α) :
    Confined P (choose epsilon trial config f descriptor x) := by
  refine .bind (.ofExcept _) fun s => .ite (.pure _) <|
    .bind (confined_trialBandwidth epsilon trial config descriptor x) fun h₂ =>
      .bind (confined_truncationCoefficient hf config descriptor x _) fun _ =>
        .ite (.bind (.note _) fun _ => .pure _) <|
          .bind (.bind (.ofExcept _) fun _ => Sampling.confined_values hf _ _) fun samples => ?_
  exact .ite (.bind (.note _) fun _ => .pure _) <|
    .bind (Cache.confined_norm descriptor) fun _ => .bind (.ofExcept _) fun _ =>
      .bind (.ofExcept _) fun _ => .pure _

end Adaptive

/-- Nor does a foreign strategy, whatever it makes of the outcomes of its calls. -/
theorem Consultation.confined_run (c : Consultation α) : Confined P (c.run f) := by
  induction c with
  | answer a => exact .pure a
  | fail fault => exact .ofExcept (.error fault)
  | sample p next ih => exact .bind (hf p).attempt fun outcome => ih outcome

/-- **Confined strategies.** The choice of a bandwidth calls nothing but the function it is made for. -/
theorem AxisStrategy.confined_choose (s : AxisStrategy α) (descriptor x : Argument α) :
    Confined P (s.choose f descriptor x) := by
  induction s with
  | fixed h => exact .pure _
  | ruleOfThumb epsilon =>
    exact .bind (RuleOfThumb.confined_choose epsilon descriptor x) fun _ => .pure _
  | adaptive epsilon trial config =>
    exact .bind (Adaptive.confined_choose hf epsilon trial config descriptor x) fun _ => .pure _
  | powerOfTwo inner ih => exact .bind ih fun _ => .bind (.ofExcept _) fun _ => .pure _
  | foreign g => exact Consultation.confined_run hf _

end FiniteDifference
