import FiniteDifference.Argument.Basic

/-!
# Faults

The ways in which a request can fail, by cause.  `Fault.kind` sorts the causes into the kinds that a
caller can tell apart, and `Kind.lineage` lists the more general kinds that a kind belongs to.
-/

namespace FiniteDifference

/-- What a bandwidth strategy serves: one variable, or the variables of a tensor stencil. -/
inductive Arity where
  | single
  | vector
  deriving DecidableEq, Repr

/-- **Invalid arguments.** The values that a request refuses.  A `name` is the role of the argument
and a `kind` the name of the kind that was given. -/
inductive Invalid (α : Type) where
  | missing (name : String)
  | notInteger (name kind : String)
  | notReal (name kind : String)
  | notPositive (name : String) (value : α)
  | entryNotPositive (name : String) (index : Nat) (value : α)
  /-- Not a sequence of numbers with at least one entry. -/
  | notSequence (name : String) (shape : List Nat)
  /-- Not a sequence of numbers, which may be empty. -/
  | notVector (name : String) (shape : List Nat)
  | notPlacement (given : Argument α)
  | negativeOrder (order : Int)
  | accuracyNotPositive (accuracy : Int)
  | accuracyNotZero (accuracy : Int)
  | accuracyOdd (accuracy : Int)
  | noAxes
  | notAxis (index : Nat) (kind : String)
  /-- No stencil where one for a single variable is needed. -/
  | notStencil (kind : String)
  /-- No stencil where one for several variables is needed. -/
  | notTensor (kind : String)
  /-- No stencil where coefficients are asked for. -/
  | notDescriptor (kind : String)
  /-- No stencil where a divisor is asked for. -/
  | notScalable (kind : String)
  | notFunction (kind : String)
  /-- A strategy without the method that an evaluator of this arity calls. -/
  | noBandwidth (arity : Arity) (kind : String)
  | notStrategy (name : String) (arity : Arity) (kind : String)
  | noLengths
  | lengthNotPositive (length : Int)
  | indexOutside (index : Argument α) (length : Nat)
  | ratioTooSmall (ratio : α)
  | variableOutside (index : Int) (size : Nat)

/-- **Unsuitable kinds.** Values whose kind does not support what is done with them. -/
inductive Unsuitable where
  | notNumeric (kind : String)
  | notHashable (kind : String)
  | notIterable (kind : String)
  | noLength (kind : String)
  /-- No order between two kinds; `relation` is the symbol of the comparison. -/
  | notComparable (relation left right : String)
  | notAnIndex (kind : String)
  | notCallable (kind : String)
  /-- An operation that two kinds do not support together. -/
  | operands (operation left right : String)
  /-- An operation that a kind does not support. -/
  | operand (operation kind : String)
  | notReal (kind : String)
  /-- An array with axes where a single number belongs. -/
  | notSingle
  /-- An array without axes where one with axes belongs. -/
  | noAxes
  /-- Arguments that an operation needs and was not given. -/
  | tooFew (operation : String) (missing : List String)
  /-- More arguments than an operation takes. -/
  | tooMany (operation : String) (least most given : Nat)
  /-- A value that has no place in exact arithmetic. -/
  | notExact (value : String)

/-- **Malformed values.** Values of a suitable kind that have no meaning where they stand. -/
inductive Malformed where
  | unreadable (text : String)
  /-- Nested lists that agree on the listed axes only. -/
  | ragged (shape : List Nat)
  /-- Lists nested deeper than an array has axes. -/
  | tooDeep
  | notScalar (shape : List Nat)
  /-- A sequence where a single number belongs. -/
  | sequenceEntry
  | outsideDomain
  /-- Arrays whose axes have no common lengths. -/
  | notBroadcastable (left right : List Nat)
  /-- A condition without a truth value. -/
  | noTruth
  /-- A condition with several truth values. -/
  | severalTruths
  /-- A whole number with too many digits to be read, if their number is given, or to be written. -/
  | tooManyDigits (given : Option Nat)
  | notFraction (text : String)

/-- **Range faults.** Results and values too large for their representation. -/
inductive TooLarge where
  | integer
  | ratio
  | power
  | function
  | size
  /-- More things than a list can have. -/
  | list
  | infiniteCount
  deriving DecidableEq, Repr

/-- **Divisions by zero.** -/
inductive ZeroDivision where
  | real
  | integer
  | negativePower
  /-- A fraction with this numerator. -/
  | fraction (numerator : Int)
  deriving DecidableEq, Repr

/-- **Index faults.** -/
inductive IndexFault where
  | tuple
  | list
  /-- A derivative order that is no power below the number of grid points. -/
  | term (order : Int)
  /-- An index beyond every size that can be counted. -/
  | tooLarge
  deriving DecidableEq, Repr

/-- **Attribute faults.** -/
inductive AttributeFault where
  | none (kind name : String)
  | immutable
  deriving DecidableEq, Repr

/-- **Kinds of fault.** -/
inductive Kind where
  | validation
  | mismatch
  | singular
  | bandwidthOverflow
  /-- Any fault that the library itself defines. -/
  | library
  | value
  | type
  | overflow
  | zeroDivision
  | index
  | runtime
  | attribute
  | frozen
  | arithmetic
  | memory
  /-- Any fault of an operation. -/
  | operation
  /-- Any fault at all. -/
  | any
  deriving DecidableEq, Repr, Inhabited

/-- **Lineage.** A kind and the more general kinds it belongs to, the most specific first. -/
def Kind.lineage : Kind → List Kind
  | .validation => [.validation, .library, .value, .operation, .any]
  | .mismatch => [.mismatch, .library, .value, .operation, .any]
  | .singular => [.singular, .library, .arithmetic, .operation, .any]
  | .bandwidthOverflow =>
    [.bandwidthOverflow, .library, .overflow, .arithmetic, .operation, .any]
  | .library => [.library, .operation, .any]
  | .value => [.value, .operation, .any]
  | .type => [.type, .operation, .any]
  | .overflow => [.overflow, .arithmetic, .operation, .any]
  | .zeroDivision => [.zeroDivision, .arithmetic, .operation, .any]
  | .index => [.index, .operation, .any]
  | .runtime => [.runtime, .operation, .any]
  | .attribute => [.attribute, .operation, .any]
  | .frozen => [.frozen, .attribute, .operation, .any]
  | .arithmetic => [.arithmetic, .operation, .any]
  | .memory => [.memory, .operation, .any]
  | .operation => [.operation, .any]
  | .any => [.any]

/-- **Faults.** -/
inductive Fault (α : Type) where
  | invalid (why : Invalid α)
  /-- A size differs from the one that is needed. -/
  | mismatch (what : String) (actual expected : Argument α)
  /-- The grid with this label has no unique coefficients. -/
  | singular (label : String)
  /-- No power of two is at least this bandwidth. -/
  | bandwidthOverflow (value : α)
  | unsuitable (why : Unsuitable)
  | malformed (why : Malformed)
  | tooLarge (why : TooLarge)
  | zeroDivision (why : ZeroDivision)
  | index (why : IndexFault)
  /-- A list for which there is no room. -/
  | noRoom
  /-- A sampled function gave up with a message. -/
  | raised (message : String)
  | attribute (why : AttributeFault)
  /-- A field that cannot be assigned. -/
  | frozen (field : String)
  /-- A fault of a kind that is stated by its details. -/
  | stated (kind : Kind) (details : List (Argument α))

namespace Fault

variable {α : Type}

/-- **Kind of a fault.** -/
def kind : Fault α → Kind
  | .invalid _ => .validation
  | .mismatch _ _ _ => .mismatch
  | .singular _ => .singular
  | .bandwidthOverflow _ => .bandwidthOverflow
  | .unsuitable _ => .type
  | .malformed _ => .value
  | .tooLarge _ => .overflow
  | .zeroDivision _ => .zeroDivision
  | .index _ => .index
  | .noRoom => .memory
  | .raised _ => .runtime
  | .attribute _ => .attribute
  | .frozen _ => .frozen
  | .stated kind _ => kind

/-- The two sizes of a mismatch. -/
def sizes? : Fault α → Option (Argument α × Argument α)
  | .mismatch _ actual expected => some (actual, expected)
  | _ => none

end Fault

/-- A missing attribute of an argument. -/
def Argument.noAttribute {α : Type} (a : Argument α) (name : String) : Fault α :=
  .attribute (.none a.kindName name)

end FiniteDifference
