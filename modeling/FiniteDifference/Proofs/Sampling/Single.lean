import FiniteDifference.Proofs.Outcomes
import FiniteDifference.Proofs.Sampling.Values

/-!
# A single worker

A single worker carries tasks out in order and stops at the first one that fails.  So it samples a
function that may fail at the points up to this one, and the samples are the values of the function if it
fails nowhere.
-/

open FiniteDifference.Action

namespace FiniteDifference

variable [Memory] {α β τ : Type}

/-! ## Tasks -/

variable [Scalar α]

/-- **Tasks in order.** A list of actions has the outcome of their outcomes, from the calls up to the first
one that fails. -/
theorem Action.Yields.mapM_untilFault {task : τ → Action α β} {outcome : τ → Except (Fault α) β}
    {called : τ → List (Point α)} (h : ∀ t, Yields (task t) (outcome t) (called t)) (ts : List τ) :
    Yields (ts.mapM task) (ts.mapM outcome) ((untilFault outcome ts).flatMap called) := by
  induction ts with
  | nil => exact Yields.pure []
  | cons t ts ih =>
    have ht := h t
    rw [List.mapM_cons, List.mapM_cons, untilFault, List.flatMap_cons]
    cases hout : outcome t with
    | error fault =>
      rw [hout] at ht
      rw [List.flatMap_nil, List.append_nil]
      exact Yields.bind_error ht
    | ok b =>
      rw [hout] at ht
      refine Yields.bind ht ?_
      cases hrest : ts.mapM outcome with
      | error fault =>
        rw [hrest] at ih
        exact Yields.bind_error ih
      | ok bs =>
        rw [hrest] at ih
        exact Yields.bind_silent ih (Yields.pure (b :: bs))

/-! ## Sampling -/

omit [Memory] in
theorem Workers.resolve_one (machine : Machine) (tasks : Int) :
    Workers.resolve machine (.int 1 : Argument α) tasks = .ok 1 := by
  have hone : max 1 (min (max 1 1) tasks) = 1 := by omega
  exact congrArg Except.ok hone

/-- **Values of a function that may fail.** If the function gives the outcome `g t` at the place of `t`, a
single worker samples it in order up to the first fault. -/
theorem Sampling.yields_values_single {f : SampledFunction α} (place : τ → Point α)
    (g : τ → Except (Fault α) α)
    (h : ∀ t, Yields (f.call (place t)) ((g t).map .number) [place t]) (machine : Machine)
    (ts : List τ) :
    Yields (values ⟨.int 1, machine⟩ f (ts.map place)) (ts.mapM g)
      ((untilFault g ts).map place) := by
  have hcalls := Yields.mapM_untilFault h ts
  rw [mapM_map_outcome, untilFault_map, ← List.map_eq_flatMap] at hcalls
  have hrun : (ts.map place).mapM f.call = ts.mapM fun t => f.call (place t) := List.mapM_map
  rw [values]
  cases ts with
  | nil => exact Yields.pure []
  | cons t ts =>
    show Yields (Action.ofExcept _ >>= _) _ _
    rw [Workers.resolve_one (α := α)]
    refine Yields.silent_bind (b := 1) (Yields.ofExcept _) ?_
    rw [Workers.execute_of_single (by decide), hrun]
    cases hresult : (t :: ts).mapM g with
    | error fault =>
      rw [hresult] at hcalls
      exact Yields.bind_error hcalls
    | ok ys =>
      rw [hresult] at hcalls
      refine Yields.bind_silent hcalls ?_
      rw [gather_numbers]
      exact Yields.ofExcept _

end FiniteDifference
