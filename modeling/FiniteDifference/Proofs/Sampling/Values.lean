import FiniteDifference.Proofs.Argument.Vectors
import FiniteDifference.Proofs.Sampling.Calls

/-!
# Sampling total functions

A function that gives a number everywhere is sampled at every point of a list, in order, and the samples
are its values there, for any number of workers.
-/

open FiniteDifference.Action

namespace FiniteDifference

variable [Memory] {α : Type}

/-! ## Total functions -/

namespace SampledFunction

/-- **Functions of one variable.** The sampled function that gives the value of a function of numbers. -/
def ofScalar (g : α → α) : SampledFunction α :=
  .rule fun p => (coordinate p).map fun x => .number (g x)

/-- **Functions of several variables.** The sampled function that gives the value of a function of
coordinates. -/
def ofVector (g : List α → α) : SampledFunction α :=
  .rule fun
    | .number x => .ok (.number (g [x]))
    | .block b => .ok (.number (g b.entries))

variable [Scalar α]

theorem yields_call_ofScalar (g : α → α) (x : α) :
    Yields ((ofScalar g).call (.number x)) (.ok (.number (g x))) [.number x] :=
  yields_call_rule _ _

theorem yields_call_ofVector (g : List α → α) (xs : List α) :
    Yields ((ofVector g).call (.vector xs)) (.ok (.number (g xs))) [.vector xs] :=
  yields_call_rule _ _

end SampledFunction

/-! ## Values -/

namespace Sampling

variable [Scalar α]

omit [Memory] in
/-- Samples that are numbers are gathered as they are. -/
theorem gather_numbers (ys : List α) : gather (ys.map .number) = .ok ys := by
  have hargs : (ys.map Sample.number).map Sample.toArgument = ys.map Argument.real := by
    rw [List.map_map]
    rfl
  rw [gather, hargs]
  show (Argument.ofReals ys).toBlock >>= _ = _
  rw [Argument.toBlock_ofReals]
  show (if _ then _ else _) = _
  rw [if_pos (by simp)]
  rfl

/-- **Values of a total function.** If the function gives the number `g t` at the place of `t`, its values
at the places of a list are those of `g`, and it is called at each place once, in order. -/
theorem yields_values {τ : Type} {f : SampledFunction α} (place : τ → Point α) (g : τ → α)
    (h : ∀ t, Yields (f.call (place t)) (.ok (.number (g t))) [place t]) {crew : Crew α}
    (ts : List τ) {workers : Int}
    (hworkers : Workers.resolve crew.machine crew.request ts.length = .ok workers) :
    Yields (values crew f (ts.map place)) (.ok (ts.map g)) (ts.map place) := by
  have hrun : Workers.execute workers id f.call (ts.map place)
      = Workers.execute workers id (fun t => f.call (place t)) ts := by
    simp only [Workers.execute, List.mapM_map, Function.comp_def]
  have hcalls : ts.map place = ts.flatMap fun t => [place t] := List.map_eq_flatMap
  rw [values]
  cases ts with
  | nil => exact Yields.pure []
  | cons t ts =>
    -- the number of workers is found for the number of places
    rw [← List.length_map (f := place)] at hworkers
    show Yields (Action.ofExcept _ >>= _) _ _
    rw [hworkers]
    refine Yields.silent_bind (Yields.ofExcept _) ?_
    show Yields (Workers.execute workers id f.call ((t :: ts).map place) >>= _) _ _
    rw [hrun, hcalls]
    refine Yields.bind_silent (Workers.yields_execute h workers (t :: ts)) ?_
    rw [← gather_numbers ((t :: ts).map g), List.map_map]
    exact Yields.ofExcept _

end Sampling

end FiniteDifference
