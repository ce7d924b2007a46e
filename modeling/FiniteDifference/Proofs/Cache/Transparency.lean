import FiniteDifference.Derivative.Evaluator
import FiniteDifference.Proofs.Cache.Lookups
import FiniteDifference.Proofs.Sampling.Calls

/-!
# Transparency of the cache

Evaluating grids, estimating derivatives and choosing bandwidths are composed actions, so they are
transparent: on all sound caches they have one outcome and make the same calls.  Every history of requests
leaves a sound cache, so what a request answers and calls does not depend on what was asked before.
-/

open FiniteDifference.Action

namespace FiniteDifference

variable [Memory] {α : Type} [Scalar α]

/-! ## Derivatives -/

/-- Evaluating a grid is a composed action. -/
theorem Evaluation.composed_grid (descriptor samples bandwidth : Argument α) :
    Composed (grid descriptor samples bandwidth) := by
  refine Composed.bind (Composed.ofExcept _) fun samples =>
    Composed.bind (Cache.composed_coefficients descriptor) fun coefficients =>
      Composed.bind (Composed.ofExcept _) fun block => ?_
  have hrest : Composed (do
      Action.ofExcept
        (Validation.checkSize block.entries.length coefficients.length "grid length")
      let divisor ← Action.ofExcept (scale descriptor bandwidth)
      Action.ofExcept (quotient (contract coefficients block.entries) divisor)) :=
    Composed.bind (Composed.ofExcept _) fun _ =>
      Composed.bind (Composed.ofExcept _) fun _ => Composed.ofExcept _
  exact Composed.ite (Composed.bind (Composed.fail _) fun _ => hrest) hrest

namespace Univariate

/-- The derivative with a given bandwidth is a composed action. -/
theorem composed_valueWith (f : SampledFunction α) (s : Stencil) (crew : Crew α)
    (x h : Argument α) : Composed (valueWith f s crew x h) :=
  Composed.bind (Composed.ofExcept _) fun _ =>
    Composed.bind (Composed.ofExcept _) fun _ =>
      Composed.bind (.exactOf (.axis s)) fun _ =>
        Composed.bind (Sampling.composed_values crew f _) fun _ =>
          Evaluation.composed_grid _ _ _

/-- So is the derivative with a bandwidth that a composed action chooses. -/
theorem composed_valueChoosing {choose : α → Action α (Argument α)}
    (h : ∀ x, Composed (choose x)) (f : SampledFunction α) (s : Stencil) (crew : Crew α)
    (x : Argument α) : Composed (valueChoosing choose f s crew x) :=
  Composed.bind (Composed.ofExcept _) fun x =>
    Composed.bind (h x) fun _ =>
      Composed.bind (Composed.ofExcept _) fun _ =>
        Composed.bind (Composed.note _ rfl) fun _ => composed_valueWith f s crew _ _

end Univariate

namespace Multivariate

theorem composed_valueWith (f : SampledFunction α) (t : Tensor) (crew : Crew α)
    (point bandwidth : Argument α) : Composed (valueWith f t crew point bandwidth) :=
  Composed.bind (Composed.ofExcept _) fun _ =>
    Composed.bind (Sampling.composed_values crew f _) fun _ =>
      Evaluation.composed_grid _ _ _

/-- The mixed derivative is a composed action if the choice of its bandwidths is one. -/
theorem composed_valueChoosing {choose : List α → Action α (Argument α)}
    (h : ∀ x, Composed (choose x)) (f : SampledFunction α) (t : Tensor) (crew : Crew α)
    (point : Argument α) : Composed (valueChoosing choose f t crew point) :=
  Composed.bind (Composed.ofExcept _) fun x =>
    Composed.bind (Composed.ofExcept _) fun _ =>
      Composed.bind (h x) fun _ =>
        Composed.bind (Composed.ofExcept _) fun _ =>
          Composed.bind (Composed.note _ rfl) fun _ => composed_valueWith f t crew _ _

end Multivariate

/-! ## Bandwidths -/

/-- The rule of thumb is a composed action. -/
theorem RuleOfThumb.composed_choose (epsilon : Positive α) (descriptor x : Argument α) :
    Composed (choose epsilon descriptor x) :=
  Composed.bind (Composed.ofExcept _) fun _ =>
    Composed.ite (Composed.pure _)
      (Composed.bind (Composed.ofExcept _) fun _ =>
        Composed.bind (Cache.composed_norm descriptor) fun _ =>
          Composed.bind (Composed.ofExcept _) fun _ =>
            Composed.bind (Composed.ofExcept _) fun _ => Composed.pure _)

namespace Adaptive

/-- The derivative with a fixed bandwidth is a composed action. -/
theorem composed_derivative (f : SampledFunction α) (descriptor x : Argument α) (h : α) :
    Composed (derivative f descriptor x h) :=
  Composed.bind (Composed.ofExcept _) fun _ =>
    Composed.bind (Composed.ofExcept _) fun _ =>
      Composed.bind (Composed.ofExcept _) fun _ =>
        Univariate.composed_valueChoosing (fun _ => Composed.pure _) f _ _ x

/-- Estimating the truncation coefficient is a composed action. -/
theorem composed_truncationCoefficient (config : AdaptiveConfig α) (f : SampledFunction α)
    (descriptor x trial : Argument α) :
    Composed (truncationCoefficient config f descriptor x trial) :=
  Composed.bind (Composed.ofExcept _) fun _ =>
    Composed.bind (composed_derivative f descriptor x _) fun _ =>
      Composed.bind (composed_derivative f descriptor x _) fun _ =>
        Composed.bind (Composed.ofExcept _) fun _ =>
          Composed.bind (Composed.ofExcept _) fun _ =>
            Composed.bind (Composed.ofExcept _) fun _ => Composed.ofExcept _

/-- The trial bandwidth is a composed action. -/
theorem composed_trialBandwidth (epsilon : Positive α) (trial : Option (Positive α))
    (config : AdaptiveConfig α) (descriptor x : Argument α) :
    Composed (trialBandwidth epsilon trial config descriptor x) := by
  cases trial with
  | some h => exact Composed.pure _
  | none =>
    exact Composed.bind (RuleOfThumb.composed_choose epsilon descriptor x) fun _ =>
      Composed.bind (Composed.ofExcept _) fun _ => Composed.pure _

/-- The adaptive bandwidth is a composed action. -/
theorem composed_choose (epsilon : Positive α) (trial : Option (Positive α))
    (config : AdaptiveConfig α) (f : SampledFunction α) (descriptor x : Argument α) :
    Composed (choose epsilon trial config f descriptor x) := by
  refine Composed.bind (Composed.ofExcept _) fun s =>
    Composed.ite (Composed.pure _)
      (Composed.bind (composed_trialBandwidth epsilon trial config descriptor x) fun h₂ =>
        Composed.bind (composed_truncationCoefficient config f descriptor x _) fun _ =>
          Composed.ite (Composed.bind (Composed.note _ rfl) fun _ => Composed.pure _)
            (Composed.bind (Sampling.composed_valuesAt _ f [x]) fun samples => ?_))
  exact Composed.ite (Composed.bind (Composed.note _ rfl) fun _ => Composed.pure _)
    (Composed.bind (Cache.composed_norm descriptor) fun _ =>
      Composed.bind (Composed.ofExcept _) fun _ =>
        Composed.bind (Composed.ofExcept _) fun _ => Composed.pure _)

end Adaptive

/-- Carrying out a consultation of a foreign strategy is a composed action. -/
theorem Consultation.composed_run (f : SampledFunction α) (c : Consultation α) :
    Composed (c.run f) := by
  induction c with
  | answer a => exact Composed.pure a
  | fail fault => exact Composed.fail fault
  | sample p next ih => exact Composed.bind (f.composed_call p).attempt fun outcome => ih outcome

/-- The bandwidth of a strategy for one variable is a composed action. -/
theorem AxisStrategy.composed_choose (f : SampledFunction α) (descriptor x : Argument α)
    (s : AxisStrategy α) : Composed (s.choose f descriptor x) := by
  induction s with
  | fixed h => exact Composed.pure _
  | ruleOfThumb epsilon =>
    exact Composed.bind (RuleOfThumb.composed_choose epsilon descriptor x) fun _ =>
      Composed.pure _
  | adaptive epsilon trial config =>
    exact Composed.bind (Adaptive.composed_choose epsilon trial config f descriptor x)
      fun _ => Composed.pure _
  | powerOfTwo inner ih =>
    exact Composed.bind ih fun _ =>
      Composed.bind (Composed.ofExcept _) fun _ => Composed.pure _
  | foreign g => exact Consultation.composed_run f _

namespace VectorStrategy

/-- Choosing one bandwidth after the other is a composed action. -/
theorem composed_chooseAlong (inner : AxisStrategy α) (f : SampledFunction α) (point : List α)
    (axis : Nat) (rest : List (Stencil × α)) :
    Composed (chooseAlong inner f point axis rest) := by
  induction rest generalizing axis with
  | nil => exact Composed.pure _
  | cons entry rest ih =>
    exact Composed.bind (inner.composed_choose _ _ _) fun _ =>
      Composed.bind (Composed.ofExcept _) fun _ =>
        Composed.bind (ih (axis + 1)) fun _ => Composed.pure _

theorem composed_choosePerAxis (inner : AxisStrategy α) (f : SampledFunction α)
    (descriptor point : Argument α) : Composed (choosePerAxis inner f descriptor point) :=
  Composed.bind (Composed.ofExcept _) fun _ =>
    Composed.bind (Composed.ofExcept _) fun _ =>
      Composed.bind (Composed.ofExcept _) fun _ => composed_chooseAlong inner f _ 0 _

/-- The bandwidths of a strategy for several variables are composed actions. -/
theorem composed_choose (f : SampledFunction α) (descriptor point : Argument α)
    (s : VectorStrategy α) : Composed (s.choose f descriptor point) := by
  induction s with
  | fixed hs => exact Composed.bind (Composed.ofExcept _) fun _ => Composed.pure _
  | axisWise inner =>
    exact Composed.bind (composed_choosePerAxis inner f descriptor point) fun _ =>
      Composed.pure _
  | powerOfTwo inner ih =>
    exact Composed.bind ih fun _ =>
      Composed.bind (Composed.ofExcept _) fun _ => Composed.pure _
  | foreign g => exact Consultation.composed_run f _

end VectorStrategy

/-! ## Requests -/

/-- **Requests.** What can be asked of the library in a session: coefficients and their norm, the
evaluation of a grid, bandwidths, and derivatives with chosen or given bandwidths. -/
inductive Request (α : Type) [Scalar α] where
  | exact (descriptor : Argument α)
  | coefficients (descriptor : Argument α)
  | norm (descriptor : Argument α)
  | grid (descriptor samples bandwidth : Argument α)
  | bandwidth (s : GivenStrategy α) (f : SampledFunction α) (descriptor x : Argument α)
  | bandwidths (s : GivenStrategy α) (f : SampledFunction α) (descriptor point : Argument α)
  | trial (s : GivenStrategy α) (descriptor x : Argument α)
  | truncation (s : GivenStrategy α) (f : SampledFunction α) (descriptor x trial : Argument α)
  | derivative (e : UnivariateEvaluator α) (x : Argument α)
  | derivativeWith (e : UnivariateEvaluator α) (x h : Argument α)
  | mixed (e : MultivariateEvaluator α) (point : Argument α)
  | mixedWith (e : MultivariateEvaluator α) (point h : Argument α)

/-- **Replies.** What a request answers. -/
inductive Reply (α : Type) where
  | exact (coefficients : List Rat)
  | scalars (coefficients : List α)
  | number (x : α)
  | bandwidth (h : Argument α)

/-- **Asking.** -/
def Request.ask : Request α → Action α (Reply α)
  | .exact d => return .exact (← Cache.exact d)
  | .coefficients d => return .scalars (← Cache.coefficients d)
  | .norm d => return .number (← Cache.norm d)
  | .grid d samples h => return .number (← Evaluation.grid d samples h)
  | .bandwidth s f d x => return .bandwidth (← s.chooseNumber f d x)
  | .bandwidths s f d point => return .bandwidth (← s.chooseVector f d point)
  | .trial s d x => return .number (← s.trialBandwidth d x)
  | .truncation s f d x h => return .number (← s.truncationCoefficient f d x h)
  | .derivative e x => return .number (← e.value x)
  | .derivativeWith e x h => return .number (← e.valueWithBandwidth x h)
  | .mixed e point => return .number (← e.value point)
  | .mixedWith e point h => return .number (← e.valueWithBandwidth point h)

namespace GivenStrategy

/-- The bandwidth of what is given as a strategy is a composed action. -/
theorem composed_chooseNumber (f : SampledFunction α) (descriptor x : Argument α)
    (s : GivenStrategy α) : Composed (s.chooseNumber f descriptor x) := by
  cases s with
  | axis s => exact s.composed_choose f descriptor x
  | vector s => exact Composed.fail _
  | other a => exact Composed.fail _

/-- So are its bandwidths for several variables. -/
theorem composed_chooseVector (f : SampledFunction α) (descriptor point : Argument α)
    (s : GivenStrategy α) : Composed (s.chooseVector f descriptor point) := by
  cases s with
  | axis s => exact Composed.fail _
  | vector s => exact s.composed_choose f descriptor point
  | other a => exact Composed.fail _

/-- So is its trial bandwidth. -/
theorem composed_trialBandwidth (descriptor x : Argument α) (s : GivenStrategy α) :
    Composed (s.trialBandwidth descriptor x) := by
  unfold trialBandwidth
  split
  · exact Adaptive.composed_trialBandwidth _ _ _ descriptor x
  · exact Composed.fail _

/-- So is its estimate of the truncation coefficient. -/
theorem composed_truncationCoefficient (f : SampledFunction α)
    (descriptor x trial : Argument α) (s : GivenStrategy α) :
    Composed (s.truncationCoefficient f descriptor x trial) := by
  unfold truncationCoefficient
  split
  · exact Adaptive.composed_truncationCoefficient _ f descriptor x trial
  · exact Composed.fail _

end GivenStrategy

/-- **Composed requests.** Asking is a composed action. -/
theorem Request.composed_ask (r : Request α) : Composed r.ask := by
  cases r with
  | exact d => exact Composed.bind (Cache.composed_exact d) fun _ => Composed.pure _
  | coefficients d =>
    exact Composed.bind (Cache.composed_coefficients d) fun _ => Composed.pure _
  | norm d => exact Composed.bind (Cache.composed_norm d) fun _ => Composed.pure _
  | grid d samples h =>
    exact Composed.bind (Evaluation.composed_grid d samples h) fun _ => Composed.pure _
  | bandwidth s f d x =>
    exact Composed.bind (s.composed_chooseNumber f d x) fun _ => Composed.pure _
  | bandwidths s f d point =>
    exact Composed.bind (s.composed_chooseVector f d point) fun _ => Composed.pure _
  | trial s d x =>
    exact Composed.bind (s.composed_trialBandwidth d x) fun _ => Composed.pure _
  | truncation s f d x h =>
    exact Composed.bind (s.composed_truncationCoefficient f d x h) fun _ =>
      Composed.pure _
  | derivative e x =>
    exact Composed.bind (Univariate.composed_valueChoosing
      (fun _ => e.strategy.composed_choose e.function _ _) e.function e.stencil e.crew x)
      fun _ => Composed.pure _
  | derivativeWith e x h =>
    exact Composed.bind (Univariate.composed_valueWith e.function e.stencil e.crew x h)
      fun _ => Composed.pure _
  | mixed e point =>
    exact Composed.bind (Multivariate.composed_valueChoosing
      (fun _ => e.strategy.composed_choose e.function _ _) e.function e.stencil e.crew point)
      fun _ => Composed.pure _
  | mixedWith e point h =>
    exact Composed.bind (Multivariate.composed_valueWith e.function e.stencil e.crew point h)
      fun _ => Composed.pure _

/-- **Transparent requests.** No request can tell one sound cache from another. -/
theorem Request.transparent_ask (r : Request α) : Transparent r.ask := r.composed_ask.transparent

/-! ## Histories -/

/-- **Operations.** A request, a test of membership or the removal of all entries. -/
inductive Operation (α : Type) [Scalar α] where
  | ask (r : Request α)
  | member (a : Argument α)
  | clear

/-- The session after an operation, whether it answered or failed. -/
def Operation.apply (session : Session α) : Operation α → Session α
  | .ask r => (r.ask.perform session).2
  | .member a => ((Cache.member a).perform session).2
  | .clear => (Cache.clear.perform session).2

/-- **Histories.** The session after operations one after the other, from a session without history. -/
def Session.after (history : List (Operation α)) : Session α :=
  history.foldl Operation.apply Session.empty

omit [Memory] [Scalar α] in
/-- A test of membership leaves the session as it is. -/
theorem Cache.perform_member (a : Argument α) (session : Session α) :
    ((Cache.member a).perform session).2 = session := by
  unfold Cache.member
  cases hkey : Cache.requireKey a with
  | error fault => rw [perform_bind_error (a := Action.ofExcept (.error fault)) rfl]
  | ok _ =>
    rw [perform_bind_ok (a := Action.ofExcept (.ok ())) rfl]
    cases a <;> rfl

/-- **Soundness step.** Every operation keeps the cache sound. -/
theorem Operation.sound_apply (op : Operation α) {session : Session α}
    (h : session.cache.Sound) : (op.apply session).cache.Sound := by
  cases op with
  | ask r =>
    obtain ⟨outcome, calls, hyields⟩ := r.transparent_ask
    exact (hyields session h).2.2
  | member a => rw [apply, Cache.perform_member]; exact h
  | clear => exact Cache.sound_empty

/-- **Sound histories.** The cache is sound after every history. -/
theorem Session.sound_after (history : List (Operation α)) :
    (Session.after history).cache.Sound := by
  have hrun : ∀ (ops : List (Operation α)) (session : Session α), session.cache.Sound →
      (ops.foldl Operation.apply session).cache.Sound := by
    intro ops
    induction ops with
    | nil => exact fun _ h => h
    | cons op ops ih => exact fun session h => ih _ (op.sound_apply h)
  exact hrun history Session.empty Cache.sound_empty

theorem Action.Yields.outcome_after {β : Type} {a : Action α β} {outcome : Except (Fault α) β}
    {calls : List (Point α)} (h : Yields a outcome calls) (history : List (Operation α)) :
    (a.perform (Session.after history)).1 = outcome :=
  (h _ (Session.sound_after history)).1

/-- **Transparency of the cache.** After any history, whatever failed in it, a request has the outcome
that it has with an empty cache, and the function is called at the same points in the same order. -/
theorem Request.ask_after_eq_fresh (history : List (Operation α)) (r : Request α) :
    (r.ask.perform (Session.after history)).1
        = (r.ask.perform { Session.after history with cache := Cache.empty }).1 ∧
      (r.ask.perform (Session.after history)).2.calls
        = (r.ask.perform { Session.after history with cache := Cache.empty }).2.calls := by
  obtain ⟨outcome, calls, hyields⟩ := r.transparent_ask
  obtain ⟨hout, hcalls, -⟩ := hyields _ (Session.sound_after history)
  obtain ⟨hout', hcalls', -⟩ :=
    hyields { Session.after history with cache := Cache.empty } Cache.sound_empty
  exact ⟨hout.trans hout'.symm, hcalls.trans hcalls'.symm⟩

end FiniteDifference
