import FiniteDifference.Proofs.Cache.Composed
import FiniteDifference.Sampling

/-!
# Calls of sampled functions

Sampling a function reads nothing of a session: the calls and the outcome depend on the function, the
points and the workers alone.  Several workers attempt every task and report the first fault; if no task
fails, they leave what a single worker leaves.
-/

open FiniteDifference.Action

namespace FiniteDifference

variable {α β τ : Type}

/-! ## Lists of tasks -/

namespace Workers

/-- An attempt of a task, whose outcome is an answer. -/
def attempt (task : τ → Action α β) (t : τ) : Action α (Except (Fault α) β) :=
  ExceptT.mk do return .ok (← (task t).run)

/-- A list of attempts never fails: it runs all tasks and collects their outcomes. -/
theorem mapM_attempt (task : τ → Action α β) (tasks : List τ) :
    tasks.mapM (attempt task)
      = ExceptT.mk do return .ok (← tasks.mapM fun t => (task t).run) := by
  induction tasks with
  | nil => rfl
  | cons t tasks ih =>
    rw [List.mapM_cons, List.mapM_cons, ih]
    rfl

/-- Several workers attempt all tasks and then report the first fault. -/
theorem execute_of_several {workers : Int} (h : 1 < workers) (task : τ → Action α β)
    (tasks : List τ) :
    execute workers id task tasks
      = tasks.mapM (attempt task) >>= fun outcomes => Action.ofExcept (firstFault outcomes) := by
  -- reporting changes no session, so it is the computation that does not touch one
  have hreport : ∀ outcomes : List (Except (Fault α) β),
      (Action.ofExcept (firstFault outcomes) : Action α (List β))
        = ExceptT.mk (pure (firstFault outcomes)) := by
    intro outcomes
    cases firstFault outcomes <;> rfl
  simp only [execute, if_pos h, mapM_attempt, hreport]
  rfl

theorem execute_of_single {workers : Int} (h : ¬1 < workers) (task : τ → Action α β)
    (tasks : List τ) : execute workers id task tasks = tasks.mapM task := by
  rw [execute, if_neg h]

/-- Where no task failed there is no first fault. -/
theorem firstFault_map_ok {ε : Type} (results : List β) :
    firstFault (results.map (Except.ok : β → Except ε β)) = .ok results := by
  induction results with
  | nil => rfl
  | cons b results ih =>
    rw [List.map_cons, firstFault, ih]
    rfl

variable [Memory] [Scalar α]

/-- **Tasks that succeed.** Any number of workers gives all results in order. -/
theorem yields_execute {task : τ → Action α β} {result : τ → β} {called : τ → List (Point α)}
    (h : ∀ t, Yields (task t) (.ok (result t)) (called t)) (workers : Int) (tasks : List τ) :
    Yields (execute workers id task tasks) (.ok (tasks.map result)) (tasks.flatMap called) := by
  by_cases hw : 1 < workers
  · rw [execute_of_several hw]
    refine Yields.bind_silent (Yields.mapM_ok (fun t => (h t).attempt) tasks) ?_
    have hfirst := firstFault_map_ok (ε := Fault α) (tasks.map result)
    rw [List.map_map] at hfirst
    exact hfirst ▸ Yields.ofExcept _
  · rw [execute_of_single hw]
    exact Yields.mapM_ok h tasks

/-- Composed tasks may be shared among workers. -/
theorem composed_execute {task : τ → Action α β} (h : ∀ t, Composed (task t))
    (workers : Int) (tasks : List τ) : Composed (execute workers id task tasks) := by
  by_cases hw : 1 < workers
  · rw [execute_of_several hw]
    exact Composed.bind (Composed.mapM (fun t => (h t).attempt) tasks) fun _ =>
      Composed.ofExcept _
  · rw [execute_of_single hw]
    exact Composed.mapM h tasks

end Workers

variable [Memory] [Scalar α]

/-! ## Single calls -/

theorem SampledFunction.yields_call_rule (value : Point α → Except (Fault α) (Sample α))
    (p : Point α) : Yields ((SampledFunction.rule value).call p) (value p) [p] :=
  Yields.bind (Yields.recordCall p) (Yields.ofExcept (value p))

/-- Calling a function is a composed action. -/
theorem SampledFunction.composed_call (f : SampledFunction α) (p : Point α) :
    Composed (f.call p) := by
  induction f generalizing p with
  | rule value => exact Composed.bind (.recordCall p) fun _ => .ofExcept (value p)
  | notFunction given => exact Composed.fail _
  | slice whole axis fixed ih => exact Composed.bind (Composed.ofExcept _) fun x => ih _

/-! ## Values at a list of points -/

namespace Sampling

/-- Sampling a function is a composed action. -/
theorem composed_values (crew : Crew α) (f : SampledFunction α) (points : List (Point α)) :
    Composed (values crew f points) :=
  Composed.ite (Composed.pure _)
    (Composed.bind (Composed.ofExcept _) fun workers =>
      Composed.bind (Workers.composed_execute f.composed_call workers points) fun _ =>
        Composed.ofExcept _)

theorem composed_valuesAt (crew : Crew α) (f : SampledFunction α)
    (arguments : List (Argument α)) : Composed (valuesAt crew f arguments) :=
  Composed.bind (Composed.ofExcept _) fun points => composed_values crew f points

end Sampling

end FiniteDifference
