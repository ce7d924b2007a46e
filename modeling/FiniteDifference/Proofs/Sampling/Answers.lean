import FiniteDifference.Proofs.Argument.Conversions
import FiniteDifference.Proofs.Sampling.Calls

/-!
# Answers of functions

What a sampled function answers at a point, and the points at which it calls a rule for that.  A slice calls
its whole function at the point with a coordinate replaced; what is no function calls nothing.  The answers
that are gathered are as many numbers as there are answers.
-/

open FiniteDifference.Action

namespace FiniteDifference

variable {α : Type}

/-! ## Calls of any function -/

namespace SampledFunction

/-- **Answers.** What a function answers at a point. -/
def answer : SampledFunction α → Point α → Except (Fault α) (Sample α)
  | .rule value, p => value p
  | .notFunction given, _ => .error (.unsuitable (.notCallable given.kindName))
  | .slice whole axis fixed, p => coordinate p >>= fun x => whole.answer (.vector (fixed.set axis x))

/-- **Called points.** The points at which a function calls a rule when it is called at a point. -/
def called : SampledFunction α → Point α → List (Point α)
  | .rule _, p => [p]
  | .notFunction _, _ => []
  | .slice whole axis fixed, p =>
    match coordinate p with
    | .ok x => whole.called (.vector (fixed.set axis x))
    | .error _ => []

/-- A rule calls itself at every point. -/
theorem flatMap_called_rule (value : Point α → Except (Fault α) (Sample α)) (points : List (Point α)) :
    points.flatMap (rule value).called = points := by
  show (points.flatMap fun p => [p]) = points
  rw [← List.map_eq_flatMap, List.map_id']

variable [Scalar α]

/-- **Calls.** A call of any function has its answer, from the points that it calls. -/
theorem yields_call [Memory] (f : SampledFunction α) (p : Point α) :
    Yields (f.call p) (f.answer p) (f.called p) := by
  induction f generalizing p with
  | rule value => exact yields_call_rule value p
  | notFunction given => exact Yields.ofExcept (.error _)
  | slice whole axis fixed ih =>
    rw [call, answer, called]
    cases coordinate p with
    | error fault => exact Yields.bind_error (Yields.ofExcept _)
    | ok x => exact Yields.silent_bind (Yields.ofExcept _) (ih _)

end SampledFunction

/-! ## Gathered answers -/

namespace Sampling

variable [Scalar α] {samples : List (Sample α)}

/-- Gathering does not reject. -/
theorem not_isRejection_of_gather {fault : Fault α} (h : gather samples = .error fault) :
    ¬fault.IsRejection := by
  rcases bind_eq_error.mp h with hblock | ⟨block, -, hshape⟩
  · exact Argument.not_isRejection_of_toBlock hblock
  · split at hshape <;> cases hshape
    exact Fault.not_isRejection_of_kind .value (by decide) rfl

/-- **Gathered answers.** There is one number for each answer. -/
theorem length_of_gather {ys : List α} (h : gather samples = .ok ys) : ys.length = samples.length := by
  obtain ⟨block, hblock, hshape⟩ := bind_eq_ok.mp h
  have hlength := Argument.length_entries_of_toBlock hblock
  split at hshape
  · next hcolumn =>
    cases hshape
    rcases hcolumn with hrow | hcolumn
    · rw [hlength, hrow]
      exact Nat.mul_one _
    · rw [hlength, hcolumn]
      exact Nat.mul_one _
  · cases hshape

end Sampling

end FiniteDifference
