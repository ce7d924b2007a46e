import FiniteDifference.Fault.Lookup
import FiniteDifference.Sampling
import FiniteDifference.Sampling.Broadcast
import FiniteDifference.Scalar.Binary64

/-!
# Arithmetic of samples

Operations on what a sampled function may give, in double precision.  On numbers an operation outside
its domain or range is a fault.  On arrays of numbers it is applied to every entry, where it gives an
infinity or the missing number instead.  Nothing cannot be computed with, so an array that holds it is
treated cell by cell until a cell has a fault.
-/

namespace FiniteDifference

/-- **Operators.** -/
inductive Operator where
  | add
  | sub
  | mul
  | div
  deriving DecidableEq, Repr

namespace Operator

/-- The written form of an operator. -/
def symbol : Operator → String
  | .add => "+"
  | .sub => "-"
  | .mul => "*"
  | .div => "/"

/-- The result of an operator. -/
def apply : Operator → Float → Float → Float
  | .add, x, y => x + y
  | .sub, x, y => x - y
  | .mul, x, y => x * y
  | .div, x, y => x / y

/-- The result of an operator on two numbers, of which the second must not be zero in a quotient. -/
def onNumbers (o : Operator) (x y : Float) : Except (Fault Float) Float :=
  if o = .div && y == 0 then .error (.zeroDivision .real) else .ok (o.apply x y)

end Operator

/-- The outcome of a computation on samples. -/
abbrev Sample.Outcome (β : Type) := Except (Fault Float) β

/-! ## Powers of numbers -/

namespace Power

/-- A power of a number. -/
def ofNumber (x exponent : Float) : Sample.Outcome Float :=
  if x == 0 && exponent < 0 then .error (.zeroDivision .negativePower)
  else
    let y := Float.pow x exponent
    if Binary64.isFinite x && y.isInf then .error (.tooLarge .power) else .ok y

/-- A power of an entry along the axes of an array: squares and reciprocals are exactly rounded. -/
def alongAxes (x exponent : Float) : Float :=
  if exponent == 2 then x * x
  else if exponent == -1 then 1 / x
  else Float.pow x exponent

/-- The power that is taken of the entries of an array: one without axes is treated as a number. -/
def ofEntries (shape : List Nat) : Float → Float → Float :=
  if shape.isEmpty then Float.pow else alongAxes

end Power

/-! ## Cells -/

namespace Cell

/-- A binary operation on cells. -/
def combine (o : Operator) (c d : Cell Float) : Sample.Outcome (Cell Float) :=
  match c, d with
  | .number x, .number y => (o.onNumbers x y).map .number
  | c, d =>
    match c.value?, d.value? with
    | some x, some y => .ok (.entry (o.apply x y))
    | _, _ => .error (.unsuitable (.operands o.symbol c.kindName d.kindName))

/-- A named operation that every number allows. -/
def transform (operation : String) (f : Float → Float) (c : Cell Float) :
    Sample.Outcome (Cell Float) :=
  match c with
  | .number x => .ok (.number (f x))
  | .entry x => .ok (.entry (f x))
  | .absent => .error (.unsuitable (.operand operation c.kindName))

/-- A power of a cell. -/
def power (k : Int) (c : Cell Float) : Sample.Outcome (Cell Float) :=
  match c with
  | .number x => do return .number (← Power.ofNumber x (← Argument.scalarOfInt k))
  | .entry x => do return .entry (Float.pow x (← Argument.scalarOfInt k))
  | .absent =>
    .error (.unsuitable
      (.operands "** or pow()" c.kindName (Argument.int k : Argument Float).kindName))

/-- Whether two cells are compared from the right: a number taken out of an array answers for nothing on
its left. -/
def isFromRight : Cell Float → Cell Float → Bool
  | .absent, .entry _ => true
  | _, _ => false

/-- Whether a cell is less than another.  A comparison from the right asks whether the other is greater. -/
def isLess (fromRight : Bool) (c d : Cell Float) : Sample.Outcome Bool :=
  match c.value?, d.value? with
  | some x, some y => .ok (decide (x < y))
  | _, _ =>
    .error (.unsuitable
      (if fromRight || c.isFromRight d then .notComparable ">" d.kindName c.kindName
        else .notComparable "<" c.kindName d.kindName))

end Cell

namespace Sample

/-- A sample as an array of numbers, none if it is or holds nothing.  A number has no axes. -/
def block? : Sample Float → Option (Block Float)
  | .number x => some (Block.single x)
  | .array b => some b
  | .absent => none
  | .mixed _ => none

/-- A sample as an array of cells; an array of numbers hands out numbers of their own. -/
def cells : Sample Float → Block (Cell Float)
  | .number x => Block.single (.number x)
  | .absent => Block.single .absent
  | .array b => b.map .number
  | .mixed b => b

/-- Combines the entries of two arrays. -/
def broadcast {α β γ : Type} (f : α → β → Outcome γ) (a : Block α) (b : Block β) :
    Outcome (Block γ) :=
  match Block.zipWith? f a b with
  | some c => c.sequence
  | none => .error (.malformed (.notBroadcastable a.shape b.shape))

/-! ## Operations -/

/-- **Binary operations.** -/
def combine (o : Operator) (a b : Sample Float) : Outcome (Sample Float) :=
  match a, b with
  | .number x, .number y => (o.onNumbers x y).map .number
  | a, b =>
    match a.block?, b.block? with
    | some x, some y => (broadcast (fun u v => .ok (o.apply u v)) x y).map .array
    | _, _ => (broadcast (Cell.combine o) a.cells b.cells).map .mixed

/-- An operation that every number allows, on every entry of a sample. -/
def transform (operation : String) (f : Float → Float) : Sample Float → Outcome (Sample Float)
  | .number x => .ok (.number (f x))
  | .array b => .ok (.array (b.map f))
  | .mixed b => (b.map (Cell.transform operation f)).sequence.map .mixed
  | .absent => (Cell.transform operation f .absent).map fun _ => .absent

/-- **Negation.** -/
def neg (a : Sample Float) : Outcome (Sample Float) := a.transform "unary -" fun x => -x

/-- **Absolute value.** -/
def abs (a : Sample Float) : Outcome (Sample Float) := a.transform "abs()" Float.abs

/-- **Powers with an integer exponent,** which must lie in the range of the doubles. -/
def power (a : Sample Float) (k : Int) : Outcome (Sample Float) :=
  match a with
  | .number x => do return .number (← Power.ofNumber x (← Argument.scalarOfInt k))
  | .array b => do
    let exponent ← Argument.scalarOfInt k
    return .array (b.map (Power.ofEntries b.shape · exponent))
  | .mixed b => (b.map (Cell.power k)).sequence.map .mixed
  | .absent => (Cell.power k .absent).map fun _ => .absent

/-! ## Functions of a number -/

/-- The number of a sample that must have a single one. -/
def single (a : Sample Float) : Outcome Float :=
  match a with
  | .number x => .ok x
  | .array b =>
    match b.single? with
    | some x => .ok x
    | none => .error (.unsuitable .notSingle)
  | .mixed _ => .error (.unsuitable .notSingle)
  | .absent => .error (.unsuitable (.notReal (Cell.absent : Cell Float).kindName))

/-- A function that is undefined where `outside` holds. -/
def within (outside : Float → Bool) (f : Float → Float) (a : Sample Float) :
    Outcome (Sample Float) := do
  let x ← a.single
  if outside x then throw (.malformed .outsideDomain)
  return .number (f x)

/-- **Sine.** -/
def sin : Sample Float → Outcome (Sample Float) := within Float.isInf Float.sin

/-- **Cosine.** -/
def cos : Sample Float → Outcome (Sample Float) := within Float.isInf Float.cos

/-- **Logarithm.** -/
def log : Sample Float → Outcome (Sample Float) := within (· <= 0) Float.log

/-- **Square root.** -/
def sqrt : Sample Float → Outcome (Sample Float) := within (· < 0) Float.sqrt

/-- **Exponential function.** -/
def exp (a : Sample Float) : Outcome (Sample Float) := do
  let x ← a.single
  let y := Float.exp x
  if Binary64.isFinite x && y.isInf then throw (.tooLarge .function)
  return .number y

/-! ## Conditions -/

/-- The truth of an array of truths, which must have one entry. -/
def truth : List Bool → Outcome Bool
  | [b] => .ok b
  | [] => .error (.malformed .noTruth)
  | _ => .error (.malformed .severalTruths)

/-- Whether two samples are compared from the right: an array answers for a number or for nothing on
its left. -/
def isFromRight : Sample Float → Sample Float → Bool
  | .number _, .array _ => true
  | .number _, .mixed _ => true
  | .absent, .array _ => true
  | .absent, .mixed _ => true
  | _, _ => false

/-- **Comparison.** -/
def isLess (a b : Sample Float) : Outcome Bool := do
  truth (← broadcast (Cell.isLess (isFromRight a b)) a.cells b.cells).entries

/-! ## Arrays -/

/-- The cells that a sample contributes to a mixed array: an array without axes is a single cell. -/
def stored : Sample Float → List (Cell Float)
  | .number x => [.number x]
  | .absent => [.absent]
  | .array b =>
    match b.single? with
    | some x => [.entry x]
    | none => b.entries.map .number
  | .mixed b => b.entries

/-- **Stacking.** The array of some samples, which must have one shape. -/
def stack (items : List (Sample Float)) : Outcome (Sample Float) := do
  let shape ← (Argument.list (items.map toArgument)).extent.evenShape
  match items.mapM block? with
  | some blocks => return .array ⟨shape, blocks.flatMap Block.entries⟩
  | none => return .mixed ⟨shape, items.flatMap stored⟩

/-- **Points as samples.** -/
def ofPoint : Point Float → Sample Float
  | .number x => .number x
  | .block b => .array b

/-- **Coordinates.** The coordinate of a point at an index, negative ones counting from the end. -/
def coordinate (p : Point Float) (i : Int) : Outcome (Sample Float) :=
  match p with
  | .number x => .error (.unsuitable (.notIterable (Argument.real x).kindName))
  | .block ⟨[], _⟩ => .error (.unsuitable .noAxes)
  | .block ⟨[_], coordinates⟩ => (pick coordinates i .list).map .number
  | .block ⟨_ :: _ :: _, _⟩ => .error (.unsuitable .notSingle)

end Sample

end FiniteDifference
