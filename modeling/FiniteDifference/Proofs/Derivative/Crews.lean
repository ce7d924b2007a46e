import FiniteDifference.Proofs.Cache.Confined
import FiniteDifference.Proofs.Derivative.Places
import FiniteDifference.Proofs.Sampling.Pool
import FiniteDifference.Scalar.Exact

/-!
# The number of workers

A rule gives something at every point, or fails there.  What it gives at the points of a list, of a stencil
or of a tensor stencil decides the outcome of sampling it, whatever the number of workers is; the number
only decides whether the points after the first fault are called as well.
-/

open FiniteDifference.Action

namespace FiniteDifference

variable {α : Type}

/-! ## Lists of points -/

/-- If the number of workers is not found, it is not found for any tasks. -/
theorem Workers.resolve_of_unavailable [Scalar α] {machine : Machine} {request : Argument α}
    {fault : Fault α} (h : available machine request = .error fault) (tasks : ℤ) :
    resolve machine request tasks = .error fault := by
  rw [resolve, h]
  rfl

namespace Sampling

/-- **Calls of a rule.** The points in reach of a number of workers, of which no more take part than there
are points. -/
def callsOf (n : ℤ) (value : Point α → Except (Fault α) (Sample α)) :
    Except (Fault α) (List (Point α)) → List (Point α)
  | .ok points => Workers.reached (max 1 (min n points.length)) value points
  | .error _ => []

theorem callsOf_of_forall_ok (n : ℤ) {value : Point α → Except (Fault α) (Sample α)}
    {points : List (Point α)} (h : ∀ p ∈ points, ∃ y, value p = .ok y) :
    callsOf n value (.ok points) = points := by
  rw [callsOf, Workers.reached, untilFault_of_forall_ok h, ite_self]

/-- Where a rule fails first, a single worker stops; several workers call all points. -/
theorem callsOf_append_cons (n : ℤ) {value : Point α → Except (Fault α) (Sample α)}
    {before : List (Point α)} {p : Point α} {fault : Fault α}
    (hbefore : ∀ q ∈ before, ∃ y, value q = .ok y) (hfault : value p = .error fault)
    (after : List (Point α)) :
    callsOf n value (.ok (before ++ p :: after))
      = if 1 < n then before ++ p :: after else before ++ [p] := by
  rw [callsOf, Workers.reached, untilFault_append_cons hbefore hfault]
  by_cases hn : 1 < n
  · rw [if_pos hn]
    split
    · rfl
    · next hfew =>
      -- a single worker is enough for a single point
      have hlength : before.length + (after.length + 1) ≤ 1 := by
        rw [List.length_append, List.length_cons] at hfew
        omega
      have hafter : after = [] := List.length_eq_zero_iff.mp (by omega)
      rw [hafter]
  · rw [if_neg hn, if_neg (by omega)]

variable [Memory] [Scalar α]

/-- **Samples of a rule.** The numbers that a rule gives at points, which may not be found themselves; the
first point where it fails has the fault. -/
def outcomeOf (value : Point α → Except (Fault α) (Sample α))
    (places : Except (Fault α) (List (Point α))) : Except (Fault α) (List α) := do
  gather (← (← places).mapM value)

/-- If the number of workers is not found, this is the fault for all points that are found, and the function
is not called. -/
theorem Estimates.yields_of_unavailable {crew : Crew α} {f : SampledFunction α}
    {places : Except (Fault α) (List (Point α))} {estimate : List α → Except (Fault α) α}
    {a : Action α α} (h : Estimates crew f places estimate a) {fault : Fault α}
    (hfault : Workers.available crew.machine crew.request = .error fault) :
    Yields a (places >>= fun _ => .error fault) [] := by
  cases places with
  | error other => exact h.of_error other rfl
  | ok points =>
    have hne : points ≠ [] := fun hnil => h.ne_nil (congrArg Except.ok hnil)
    exact h.of_ok points _ _ rfl
      (yields_values_of_error f hne (Workers.resolve_of_unavailable hfault points.length))

variable {value : Point α → Except (Fault α) (Sample α)} {crew : Crew α} {n : ℤ}
  (hn : Workers.available crew.machine crew.request = .ok n)
include hn

omit [Memory] in
theorem resolve_of_available (tasks : ℤ) :
    Workers.resolve crew.machine crew.request tasks = .ok (max 1 (min n tasks)) := by
  rw [Workers.resolve, hn]
  rfl

/-- **Estimates by any crew.** They are computed from the samples that the answers of the function give. -/
theorem Estimates.yields_of_available {f : SampledFunction α}
    {places : Except (Fault α) (List (Point α))} {estimate : List α → Except (Fault α) α}
    {a : Action α α} (h : Estimates crew f places estimate a) :
    Yields a (outcomeOf f.answer places >>= estimate)
      ((callsOf n f.answer places).flatMap f.called) := by
  cases places with
  | error fault => exact h.of_error fault rfl
  | ok points =>
    exact h.of_ok points _ _ rfl (yields_values_answer f (resolve_of_available hn points.length))

/-- **Values of a rule at arguments.** They are the samples of the rule. -/
theorem yields_valuesAt_rule (arguments : List (Argument α)) :
    Yields (valuesAt crew (.rule value) arguments) (outcomeOf value (arguments.mapM pointOf))
      (callsOf n value (arguments.mapM pointOf)) := by
  rw [valuesAt]
  cases arguments.mapM (pointOf (α := α)) with
  | error fault => exact Yields.bind_error (Yields.ofExcept _)
  | ok points =>
    have hvalues : Yields (values crew (.rule value) points) _ _ :=
      yields_values_answer (.rule value) (resolve_of_available hn points.length)
    rw [SampledFunction.flatMap_called_rule] at hvalues
    exact Yields.silent_bind (Yields.ofExcept _) hvalues

omit [Memory] in
/-- **Pools of workers.** What several workers answer and leave is what a finished pool reports and leaves. -/
theorem exists_run_values {points : List (Point α)} (hseveral : 1 < min n points.length)
    (session : Session α) :
    ∃ pool, Workers.Pool.Run (SampledFunction.rule value).call (.start points session) pool ∧
      pool.Finished ∧ (values crew (.rule value) points).perform session
        = (Workers.firstFault pool.outcomes >>= gather, pool.session) := by
  have hworkers : 1 < max 1 (min n (points.length : ℤ)) := by omega
  obtain ⟨pool, hrun, hfinished, hperform⟩ := Workers.Pool.exists_run_execute hworkers
    (SampledFunction.rule value).call points session
  refine ⟨pool, hrun, hfinished, ?_⟩
  have hne : ¬points.isEmpty = true := by
    intro hempty
    rw [List.isEmpty_iff.mp hempty, List.length_nil] at hseveral
    omega
  rw [values, if_neg hne, resolve_of_available hn, ofExcept_ok_bind]
  cases hreport : Workers.firstFault pool.outcomes with
  | error fault =>
    rw [hreport] at hperform
    exact perform_bind_error hperform
  | ok samples =>
    rw [hreport] at hperform
    rw [perform_bind_ok hperform]
    show _ = (gather samples, pool.session)
    cases gather samples <;> rfl

end Sampling

variable [Memory] [Scalar α]

/-! ## Derivatives in one variable -/

namespace Univariate

/-- **The derivative of a rule.** The outcome of the grid of the samples of the rule. -/
def outcomeOf (value : Point α → Except (Fault α) (Sample α)) (s : Stencil) (x h : Argument α) :
    Except (Fault α) α := do
  let samples ← Sampling.outcomeOf value (places s x h)
  let h ← Validation.requirePositive h "bandwidth"
  Evaluation.outcome (.axis s) (spread s.coefficients samples) (.real h.val)

/-- **Derivatives of a rule,** by any crew. -/
theorem yields_valueWith_rule (value : Point α → Except (Fault α) (Sample α)) {crew : Crew α} {n : ℤ}
    (hn : Workers.available crew.machine crew.request = .ok n) (s : Stencil) (x h : Argument α) :
    Yields (valueWith (.rule value) s crew x h) (outcomeOf value s x h)
      (Sampling.callsOf n value (places s x h)) := by
  rw [← SampledFunction.flatMap_called_rule value (Sampling.callsOf n value (places s x h))]
  exact (estimates_valueWith (.rule value) s crew x h).yields_of_available hn

end Univariate

/-! ## Derivatives in several variables -/

namespace Multivariate

/-- **The mixed derivative of a rule.** The outcome of the grid of the samples of the rule. -/
def outcomeOf (value : Point α → Except (Fault α) (Sample α)) (t : Tensor) (point h : Argument α) :
    Except (Fault α) α := do
  let samples ← Sampling.outcomeOf value (places t point h)
  Evaluation.outcome (.tensor t) samples h

/-- **Mixed derivatives of a rule,** by any crew. -/
theorem yields_valueWith_rule (value : Point α → Except (Fault α) (Sample α)) {crew : Crew α} {n : ℤ}
    (hn : Workers.available crew.machine crew.request = .ok n) (t : Tensor) (point h : Argument α) :
    Yields (valueWith (.rule value) t crew point h) (outcomeOf value t point h)
      (Sampling.callsOf n value (places t point h)) := by
  rw [← SampledFunction.flatMap_called_rule value (Sampling.callsOf n value (places t point h))]
  exact (estimates_valueWith (.rule value) t crew point h).yields_of_available hn

end Multivariate

/-! ## Any crew -/

namespace Sampling

/-- **The number of workers does not matter.** After any history, for every rule and every crew whose number of
workers is found: the values of the rule at arguments and its derivatives in one and in several variables are
outcomes of the rule in which the workers do not occur, namely those of its samples or the fault of the first
point where it fails.  If it fails, a single worker has called the points up to this one, in order, and
several workers have called every point once; otherwise every point is called once.  Several workers are a
pool, and a pool that takes the points up in any order reports the same outcome and calls every point once. -/
theorem outcomes_for_any_crew (history : List (Operation α))
    (value : Point α → Except (Fault α) (Sample α)) (crew : Crew α) {n : ℤ}
    (hn : Workers.available crew.machine crew.request = .ok n) :
    let start := Session.after history
    (∀ arguments : List (Argument α),
      ((valuesAt crew (.rule value) arguments).perform start).1
          = outcomeOf value (arguments.mapM pointOf) ∧
        ((valuesAt crew (.rule value) arguments).perform start).2.calls
          = start.calls ++ callsOf n value (arguments.mapM pointOf)) ∧
    (∀ (s : Stencil) (strategy : AxisStrategy α) (x h : Argument α),
      ((UnivariateEvaluator.valueWithBandwidth ⟨.rule value, s, strategy, crew⟩ x h).perform start).1
          = Univariate.outcomeOf value s x h ∧
        ((UnivariateEvaluator.valueWithBandwidth ⟨.rule value, s, strategy, crew⟩ x h).perform
            start).2.calls
          = start.calls ++ callsOf n value (Univariate.places s x h)) ∧
    (∀ (t : Tensor) (strategy : VectorStrategy α) (point h : Argument α),
      ((MultivariateEvaluator.valueWithBandwidth ⟨.rule value, t, strategy, crew⟩ point h).perform
            start).1
          = Multivariate.outcomeOf value t point h ∧
        ((MultivariateEvaluator.valueWithBandwidth ⟨.rule value, t, strategy, crew⟩ point h).perform
            start).2.calls
          = start.calls ++ callsOf n value (Multivariate.places t point h)) ∧
    (∀ (before after : List (Point α)) (p : Point α) (fault : Fault α),
      (∀ q ∈ before, ∃ y, value q = .ok y) → value p = .error fault →
        outcomeOf value (.ok (before ++ p :: after)) = .error fault ∧
          callsOf n value (.ok (before ++ p :: after))
            = if 1 < n then before ++ p :: after else before ++ [p]) ∧
    (∀ points : List (Point α), (∀ p ∈ points, ∃ y, value p = .ok y) →
      callsOf n value (.ok points) = points) ∧
    (∀ points : List (Point α), 1 < min n points.length →
      ∃ pool, Workers.Pool.Run (SampledFunction.rule value).call (.start points start) pool ∧
        pool.Finished ∧ (values crew (.rule value) points).perform start
          = (Workers.firstFault pool.outcomes >>= gather, pool.session)) ∧
    ∀ (points : List (Point α)) (pool : Workers.Pool (Point α) α (Sample α)),
      Workers.Pool.Run (SampledFunction.rule value).call (.start points start) pool → pool.Finished →
        (Workers.firstFault pool.outcomes >>= gather) = outcomeOf value (.ok points) ∧
          ∃ calls, pool.session.calls = start.calls ++ calls ∧ calls.Perm points := by
  intro start
  have hsound : start.cache.Sound := Session.sound_after history
  refine ⟨fun arguments => ?_, fun s strategy x h => ?_, fun t strategy point h => ?_,
    fun before after p fault hbefore hfault => ⟨?_, callsOf_append_cons n hbefore hfault after⟩,
    fun points hok => callsOf_of_forall_ok n hok,
    fun points hseveral => exists_run_values hn hseveral start, fun points pool hrun hfinished => ?_⟩
  · have hvalues : Yields (valuesAt crew (.rule value) arguments) _ _ :=
      yields_valuesAt_rule hn arguments
    obtain ⟨hout, hcalls, -⟩ := hvalues start hsound
    exact ⟨hout, hcalls⟩
  · obtain ⟨hout, hcalls, -⟩ := Univariate.yields_valueWith_rule value hn s x h start hsound
    exact ⟨hout, hcalls⟩
  · obtain ⟨hout, hcalls, -⟩ := Multivariate.yields_valueWith_rule value hn t point h start hsound
    exact ⟨hout, hcalls⟩
  · show (before ++ p :: after).mapM value >>= gather = .error fault
    rw [mapM_append_cons_eq_error hbefore hfault after]
    rfl
  · obtain ⟨hreport, calls, hcalls, hperm⟩ := Workers.Pool.report_eq
      (SampledFunction.yields_call_rule value) hsound hrun hfinished
    rw [← List.map_eq_flatMap, List.map_id'] at hperm
    exact ⟨by rw [hreport]; rfl, calls, hcalls, hperm⟩

/-! ## Two faults -/

/-- A rule that refuses the numbers below zero, minus one with a message of its own. -/
def refuseNegative : Point ℚ → Except (Fault ℚ) (Sample ℚ)
  | .number x =>
    if 0 ≤ x then .ok (.number x)
    else .error (.raised (if x = -1 then "minus one" else "negative"))
  | .block _ => .ok .absent

omit [Memory] in
/-- Of two points where a rule fails, the first one decides for one and for four workers; four workers call
the points after it too. -/
theorem valuesAt_refuseNegative :
    letI : Memory := .ample
    letI : Scalar ℚ := Scalar.exact fun _ _ => 0
    let arguments : List (Argument ℚ) := [.real 1, .real (-1), .real (-2), .real 3]
    let alone := (valuesAt ⟨.int 1, default⟩ (.rule refuseNegative) arguments).perform
      (Session.after [])
    let together := (valuesAt ⟨.int 4, default⟩ (.rule refuseNegative) arguments).perform
      (Session.after [])
    Workers.available default (.int 1 : Argument ℚ) = .ok 1 ∧
      Workers.available default (.int 4 : Argument ℚ) = .ok 4 ∧
      alone.1 = .error (.raised "minus one") ∧ alone.2.calls = [.number 1, .number (-1)] ∧
      together.1 = .error (.raised "minus one") ∧
      together.2.calls = [.number 1, .number (-1), .number (-2), .number 3] := by
  let : Memory := .ample
  let : Scalar ℚ := Scalar.exact fun _ _ => 0
  intro arguments alone together
  have hone : Workers.available (default : Machine) (.int 1 : Argument ℚ) = .ok 1 := rfl
  have hfour : Workers.available (default : Machine) (.int 4 : Argument ℚ) = .ok 4 := rfl
  obtain ⟨hvalues, -, -, hfault, -⟩ :=
    outcomes_for_any_crew [] refuseNegative ⟨.int 1, default⟩ hone
  obtain ⟨hvalues', -, -, hfault', -⟩ :=
    outcomes_for_any_crew [] refuseNegative ⟨.int 4, default⟩ hfour
  have hbefore : ∀ q ∈ [Point.number 1], ∃ y, refuseNegative q = .ok y :=
    List.forall_mem_singleton.mpr ⟨_, rfl⟩
  have hsecond : refuseNegative (.number (-1)) = .error (.raised "minus one") := by
    rw [refuseNegative, if_neg (by decide), if_pos rfl]
  obtain ⟨hout, hcalls⟩ := hfault [.number 1] [.number (-2), .number 3] (.number (-1)) _ hbefore hsecond
  obtain ⟨hout', hcalls'⟩ :=
    hfault' [.number 1] [.number (-2), .number 3] (.number (-1)) _ hbefore hsecond
  exact ⟨hone, hfour, (hvalues arguments).1.trans hout, (hvalues arguments).2.trans hcalls,
    (hvalues' arguments).1.trans hout', (hvalues' arguments).2.trans hcalls'⟩

end Sampling

end FiniteDifference
