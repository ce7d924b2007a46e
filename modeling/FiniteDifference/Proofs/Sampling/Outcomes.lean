import FiniteDifference.Proofs.Outcomes
import FiniteDifference.Proofs.Sampling.Answers
import FiniteDifference.Proofs.Sampling.Single

/-!
# Outcomes of sampling

What a function answers at a vector, be it a number, an array or a fault, decides the outcome of sampling it
at a list of vectors: any number of workers reports the first fault in the order of the points, or gathers
the answers.
-/

open FiniteDifference.Action

namespace FiniteDifference

variable {α β τ : Type}

/-! ## Answers of functions -/

namespace SampledFunction

/-- **Answers.** What a function answers at a vector.  What is no function and slices, which take a number,
fail there. -/
def answerAt : SampledFunction α → List α → Except (Fault α) (Sample α)
  | .rule value, xs => value (.vector xs)
  | .notFunction given, _ => .error (.unsuitable (.notCallable given.kindName))
  | .slice _ _ _, _ => .error (.malformed .sequenceEntry)

/-- It is the answer at the point with these coordinates. -/
theorem answer_vector (f : SampledFunction α) (xs : List α) : f.answer (.vector xs) = f.answerAt xs := by
  cases f <;> rfl

end SampledFunction

/-! ## Lists of tasks -/

namespace Workers

/-- The first fault of a list of outcomes is that of carrying them out in order. -/
theorem firstFault_map {ε : Type} (outcome : τ → Except ε β) (tasks : List τ) :
    firstFault (tasks.map outcome) = tasks.mapM outcome := by
  induction tasks with
  | nil => rfl
  | cons t tasks ih =>
    rw [List.map_cons, List.mapM_cons]
    cases outcome t with
    | error fault => rfl
    | ok b =>
      rw [firstFault, ih]
      cases tasks.mapM outcome with
      | error fault => rfl
      | ok bs => rfl

variable [Memory] [Scalar α]

/-- **Tasks in reach.** The tasks that some workers carry out: a single one stops at the first fault, several
ones carry out all of them. -/
def reached {ε : Type} (workers : Int) (outcome : τ → Except ε β) (tasks : List τ) : List τ :=
  if 1 < workers then tasks else untilFault outcome tasks

/-- **Calls of tasks that may fail.** Any number of workers has the outcome of the tasks in order, from the
calls of the tasks in reach. -/
theorem yields_execute_reached {task : τ → Action α β} {outcome : τ → Except (Fault α) β}
    {called : τ → List (Point α)} (h : ∀ t, Yields (task t) (outcome t) (called t)) (workers : Int)
    (tasks : List τ) :
    Yields (execute workers id task tasks) (tasks.mapM outcome)
      ((reached workers outcome tasks).flatMap called) := by
  by_cases hw : 1 < workers
  · rw [execute_of_several hw, ← firstFault_map, reached, if_pos hw]
    exact Yields.bind_silent (Yields.mapM_ok (fun t => (h t).attempt) tasks) (Yields.ofExcept _)
  · rw [execute_of_single hw, reached, if_neg hw]
    exact Yields.mapM_untilFault h tasks

end Workers

/-! ## Values -/

variable [Memory] [Scalar α]

namespace Sampling

/-- **Values of any function.** If the number of workers is found, the outcome is that of gathering the answers
of the function in order, from the calls for the points in reach. -/
theorem yields_values_answer (f : SampledFunction α) {crew : Crew α} {points : List (Point α)}
    {workers : Int} (hworkers : Workers.resolve crew.machine crew.request points.length = .ok workers) :
    Yields (values crew f points) (points.mapM f.answer >>= gather)
      ((Workers.reached workers f.answer points).flatMap f.called) := by
  have hrun := Workers.yields_execute_reached f.yields_call workers points
  rw [values]
  cases points with
  | nil =>
    have hnone : Workers.reached workers f.answer [] = [] := ite_self _
    rw [hnone]
    exact Yields.pure []
  | cons p points =>
    show Yields (Action.ofExcept _ >>= _) _ _
    rw [hworkers]
    refine Yields.silent_bind (b := workers) (Yields.ofExcept _) ?_
    cases hsamples : (p :: points).mapM f.answer with
    | error fault =>
      rw [hsamples] at hrun
      exact Yields.bind_error hrun
    | ok samples =>
      rw [hsamples] at hrun
      exact Yields.bind_silent hrun (Yields.ofExcept _)

/-- If the number of workers is not found, no function is called. -/
theorem yields_values_of_error (f : SampledFunction α) {crew : Crew α} {points : List (Point α)}
    (hne : points ≠ []) {fault : Fault α}
    (hworkers : Workers.resolve crew.machine crew.request points.length = .error fault) :
    Yields (values crew f points) (.error fault) [] := by
  rw [values, if_neg (by simpa using hne), hworkers]
  exact Yields.bind_error (Yields.ofExcept _)

/-- **Values at vectors.** The outcome is that of gathering the answers at the vectors. -/
theorem outcome_values {f : SampledFunction α} {crew : Crew α} {points : List (List α)} {workers : Int}
    (hworkers : Workers.resolve crew.machine crew.request points.length = .ok workers) :
    ∃ calls, Yields (values crew f (points.map .vector)) (points.mapM f.answerAt >>= gather) calls := by
  rw [← List.length_map (f := Point.vector)] at hworkers
  have hvalues := yields_values_answer f hworkers
  rw [List.mapM_map, funext (f := f.answer ∘ Point.vector) f.answer_vector] at hvalues
  exact ⟨_, hvalues⟩

end Sampling

end FiniteDifference
