import FiniteDifference.Sampling.Cell
import FiniteDifference.Session
import FiniteDifference.Validation
import FiniteDifference.Workers

/-!
# Sampling

Sampled functions, their slices along one axis, and the values of a function at a list of points.
-/

namespace FiniteDifference

variable {α : Type}

/-- **Samples.** What a function gives at a point: a number, nothing, an array of numbers, or an array
with nothing among its entries. -/
inductive Sample (α : Type) where
  | number (x : α)
  | absent
  | array (b : Block α)
  | mixed (b : Block (Cell α))

/-- A sample as an argument. -/
def Sample.toArgument : Sample α → Argument α
  | .number x => .real x
  | .absent => .absent
  | .array b => Argument.ofBlock b
  | .mixed b => Argument.nest b.shape (b.entries.map Cell.toArgument)

/-- **Sampled functions.** A rule, a value that is no function, or the slice of a function along one
axis, with the coordinates at which the others are held. -/
inductive SampledFunction (α : Type) where
  | rule (value : Point α → Except (Fault α) (Sample α))
  | notFunction (given : Argument α)
  | slice (whole : SampledFunction α) (axis : Nat) (fixed : List α)

namespace SampledFunction

/-- The name of the kind of a sampled function. -/
def kindName : SampledFunction α → String
  | .notFunction given => given.kindName
  | _ => "function"

/-- Whether a sampled function can be called. -/
def isCallable : SampledFunction α → Bool
  | .notFunction _ => false
  | _ => true

/-- The number that replaces a coordinate. -/
def coordinate : Point α → Except (Fault α) α
  | .number x => .ok x
  | .block _ => .error (.malformed .sequenceEntry)

/-- **Calling a function.** The point is recorded before the rule is applied.  A slice is called at
the point with one coordinate replaced. -/
def call : SampledFunction α → Point α → Action α (Sample α)
  | .rule value, p => do
    Action.recordCall p
    Action.ofExcept (value p)
  | .notFunction given, _ => Action.fail (.unsuitable (.notCallable given.kindName))
  | .slice whole axis fixed, p => do
    let x ← Action.ofExcept (coordinate p)
    whole.call (.vector (fixed.set axis x))

variable [Scalar α]

/-- **Slices.** The function of one coordinate, with the others fixed. -/
def sliceOf (f : SampledFunction α) (axis fixed : Argument α) :
    Except (Fault α) (SampledFunction α) := do
  let block ← fixed.toBlock
  if block.shape.length ≠ 1 then throw (.invalid (.notVector "fixed_values" block.shape))
  let i ← Validation.requireInteger axis "variable_index"
  let size := block.entries.length
  if i < 0 ∨ (size : Int) ≤ i then throw (.refusal (.variableOutside i size))
  return .slice f i.toNat block.entries

/-- An argument as the point at which a slice is called. -/
def slicePoint (a : Argument α) : Except (Fault α) (Point α) :=
  match a with
  | .list _ => .error (.malformed .sequenceEntry)
  | a => a.toEntry.map .number

end SampledFunction

/-! ## Values at a list of points -/

namespace Sampling

variable [Scalar α]

/-- An argument as a point: numbers and texts are numbers, anything else is an array. -/
def pointOf (a : Argument α) : Except (Fault α) (Point α) :=
  match a with
  | .list _ | .absent => a.toBlock.map .block
  | a => a.toScalar.map .number

/-- **Gathering samples.** One number per sample.  The samples are stacked into an array first; an
array with one column counts as that column. -/
def gather (samples : List (Sample α)) : Except (Fault α) (List α) := do
  let block ← (Argument.list (samples.map Sample.toArgument)).toBlock
  if block.shape = [samples.length] ∨ block.shape = [samples.length, 1] then
    return block.entries
  else throw (.malformed (.notScalar block.shape))

/-- **Values of a function at points.** -/
def values (crew : Crew α) (f : SampledFunction α) (points : List (Point α)) :
    Action α (List α) := do
  if points.isEmpty then return []
  let workers ← Action.ofExcept (Workers.resolve crew.machine crew.request points.length)
  let samples ← Workers.execute workers id f.call points
  Action.ofExcept (gather samples)

/-- The values of a function at arguments, all of which are converted before the first call. -/
def valuesAt (crew : Crew α) (f : SampledFunction α) (arguments : List (Argument α)) :
    Action α (List α) := do
  let points ← Action.ofExcept (arguments.mapM pointOf)
  values crew f points

end Sampling

end FiniteDifference
