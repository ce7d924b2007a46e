import FiniteDifference.Argument.Number
import FiniteDifference.Fault.Signature
import FiniteDifference.Fault.Told
import FiniteDifference.Number.Reading

/-!
# Fault messages

The text of each fault.
-/

namespace FiniteDifference

/-- An entry of an array of doubles. -/
def writeEntry (x : Float) : String := "np.float64(" ++ writeReal x ++ ")"

/-- The method that gives bandwidths of an arity. -/
def Arity.method : Arity → String
  | .single => "get_bandwidth"
  | .vector => "get_bandwidth_vector"

/-- The name of the strategies of an arity. -/
def Arity.strategy : Arity → String
  | .single => "UnivariateBandwidthStrategy"
  | .vector => "MultivariateBandwidthStrategy"

/-- The text of an invalid argument. -/
def Invalid.message : Invalid Float → String
  | .missing name => name ++ " must not be None."
  | .notInteger name kind => name ++ " must be an integer; got " ++ kind ++ "."
  | .notReal name kind => name ++ " must be a real number; got " ++ kind ++ "."
  | .notPositive name value =>
    name ++ " must be finite and strictly positive; got " ++ writeReal value ++ "."
  | .entryNotPositive name index value =>
    name ++ "[" ++ toString index ++ "] must be finite and strictly positive; got " ++
      writeEntry value ++ "."
  | .notSequence name shape =>
    name ++ " must be a non-empty 1D sequence; got shape " ++ writeShape shape ++ "."
  | .notVector name shape => name ++ " must be 1D; got shape " ++ writeShape shape ++ "."
  | .notPlacement given => "stencil_type must be a StencilType; got " ++ given.inspect ++ "."
  | .negativeOrder order => "derivative_order must be non-negative; got " ++ toString order ++ "."
  | .accuracyNotPositive accuracy =>
    "error_order must be strictly positive when derivative_order is nonzero; got error_order=" ++
      toString accuracy ++ "."
  | .accuracyNotZero accuracy =>
    "error_order must be 0 when derivative_order is 0; got " ++ toString accuracy ++ "."
  | .accuracyOdd accuracy =>
    "central stencils require an even error_order; got " ++ toString accuracy ++ "."
  | .noAxes => "at least one univariate descriptor is required."
  | .notAxis index kind =>
    "descriptor " ++ toString index ++ " must be a StencilDescriptor; got " ++ kind ++ "."
  | .notStencil kind => "descriptor must be a StencilDescriptor; got " ++ kind ++ "."
  | .notTensor kind => "descriptor must be a MultivariateStencilDescriptor; got " ++ kind ++ "."
  | .notDescriptor kind =>
    "descriptor must be a StencilDescriptor or MultivariateStencilDescriptor; got " ++ kind ++ "."
  | .notScalable kind => "descriptor must be a stencil descriptor; got " ++ kind ++ "."
  | .notFunction kind => "function must be callable; got " ++ kind ++ "."
  | .noBandwidth arity kind =>
    "bandwidth_strategy must provide " ++ arity.method ++ "(); got " ++ kind ++ "."
  | .notStrategy name arity kind =>
    name ++ " must implement " ++ arity.strategy ++ "; got " ++ kind ++ "."
  | .noLengths => "at least one dimension length is required."
  | .lengthNotPositive length =>
    "dimension lengths must be strictly positive; got " ++ toString length ++ "."
  | .indexOutside index length =>
    "index " ++ index.display ++ " out of range for length " ++ toString length ++ "."
  | .ratioTooSmall ratio => "step_ratio must be greater than 1; got " ++ writeReal ratio ++ "."
  | .variableOutside index size =>
    "variable_index " ++ toString index ++ " out of bounds for size " ++ toString size ++ "."

/-- A number of things, in the plural unless there is one of them. -/
def writeCount (count : Nat) (thing : String) : String :=
  toString count ++ " " ++ thing ++ if count = 1 then "" else "s"

/-- Quoted names, the last of them after a conjunction. -/
def writeNames (names : List String) : String :=
  match (names.map Text.quote).reverse with
  | [] => ""
  | [name] => name
  | [last, name] => name ++ " and " ++ last
  | last :: names => String.intercalate ", " names.reverse ++ ", and " ++ last

/-- The text of an unsuitable kind. -/
def Unsuitable.message : Unsuitable → String
  | .notNumeric kind =>
    "float() argument must be a string or a real number, not '" ++ kind ++ "'"
  | .notHashable kind => "unhashable type: '" ++ kind ++ "'"
  | .notIterable kind => "'" ++ kind ++ "' object is not iterable"
  | .noLength kind => "object of type '" ++ kind ++ "' has no len()"
  | .notComparable relation left right =>
    "'" ++ relation ++ "' not supported between instances of '" ++ left ++ "' and '" ++ right ++ "'"
  | .notAnIndex kind => "tuple indices must be integers or slices, not " ++ kind
  | .notCallable kind => "'" ++ kind ++ "' object is not callable"
  | .operands operation left right =>
    "unsupported operand type(s) for " ++ operation ++ ": '" ++ left ++ "' and '" ++ right ++ "'"
  | .operand operation kind => "bad operand type for " ++ operation ++ ": '" ++ kind ++ "'"
  | .notReal kind => "must be real number, not " ++ kind
  | .notSingle => "only 0-dimensional arrays can be converted to Python scalars"
  | .noAxes => "iteration over a 0-d array"
  | .tooFew operation missing =>
    operation ++ "() missing " ++ writeCount missing.length "required positional argument" ++ ": " ++
      writeNames missing
  | .tooMany operation least most given =>
    operation ++ "() takes " ++
      (if least = most then writeCount most "positional argument"
        else "from " ++ toString least ++ " to " ++ toString most ++ " positional arguments") ++
      " but " ++ toString given ++ (if given = 1 then " was" else " were") ++ " given"
  | .notExact value => "invalid input: " ++ value

/-- The axis lengths of an array, as a tuple without blanks. -/
def writeNarrowShape (shape : List Nat) : String :=
  match shape with
  | [n] => "(" ++ toString n ++ ",)"
  | shape => "(" ++ String.intercalate "," (shape.map fun n => toString n) ++ ")"

/-- The text of a malformed value. -/
def Malformed.message : Malformed → String
  | .unreadable text => "could not convert string to float: " ++ Text.quote text
  | .ragged shape =>
    "setting an array element with a sequence. The requested array has an inhomogeneous shape after "
      ++ toString shape.length ++ " dimensions. The detected shape was " ++ writeShape shape ++
      " + inhomogeneous part."
  | .tooDeep =>
    "setting an array element with a sequence. The requested array would exceed the maximum number of dimension of "
      ++ toString Extent.axisLimit ++ "."
  | .notScalar shape =>
    "function must return a scalar at every grid point; got values of shape " ++ writeShape shape ++
      "."
  | .sequenceEntry => "setting an array element with a sequence."
  | .outsideDomain => "math domain error"
  | .notBroadcastable left right =>
    "operands could not be broadcast together with shapes " ++ writeNarrowShape left ++ " " ++
      writeNarrowShape right ++ " "
  | .noTruth =>
    "The truth value of an empty array is ambiguous. Use `array.size > 0` to check that an array is not empty."
  | .severalTruths =>
    "The truth value of an array with more than one element is ambiguous. Use a.any() or a.all()"
  | .tooManyDigits given =>
    "Exceeds the limit (" ++ toString Reading.digitLimit ++
      " digits) for integer string conversion" ++
      (match given with
        | some count => ": value has " ++ toString count ++ " digits"
        | none => "") ++
      "; use sys.set_int_max_str_digits() to increase the limit"
  | .notFraction text => "Invalid literal for Fraction: " ++ Text.quote text

/-- The text of a range fault. -/
def TooLarge.message : TooLarge → String
  | .integer => "int too large to convert to float"
  | .ratio => "integer division result too large for a float"
  | .power => "(34, 'Numerical result out of range')"
  | .function => "math range error"
  | .size => "cannot fit 'int' into an index-sized integer"
  | .list => "Python int too large to convert to C ssize_t"
  | .infiniteCount => "cannot convert float infinity to integer"

/-- The text of a division by zero. -/
def ZeroDivision.message : ZeroDivision → String
  | .real => "float division by zero"
  | .integer => "integer division or modulo by zero"
  | .negativePower => "0.0 cannot be raised to a negative power"
  | .fraction numerator => "Fraction(" ++ toString numerator ++ ", 0)"

/-- The text of an index fault. -/
def IndexFault.message : IndexFault → String
  | .tuple => "tuple index out of range"
  | .list => "list index out of range"
  | .term order => "Index out of range: a[" ++ toString order ++ "]"
  | .tooLarge => "cannot fit 'int' into an index-sized integer"

/-- The text of an attribute fault. -/
def AttributeFault.message : AttributeFault → String
  | .none kind name => "'" ++ kind ++ "' object has no attribute '" ++ name ++ "'"
  | .immutable => "MultivariateStencilDescriptor is immutable."

/-- The text of a fault that is stated by its details: nothing, the only detail, or the tuple of all
of them. -/
def detailMessage : List (Argument Float) → String
  | [] => ""
  | [detail] => detail.display
  | details => writeTuple (details.map Argument.inspect)

/-- The arguments that make a mismatch, besides the fault itself. -/
def mismatchSignature : Signature :=
  ⟨"DimensionMismatchError.__init__", ["actual", "expected"], 1, 1⟩

/-- **Faults from details.** A mismatch takes the actual and the expected size and perhaps the name of
what differs; any other kind keeps its details as they are. -/
def Fault.ofDetails (kind : Kind) (details : List (Argument Float)) : Fault Float :=
  match kind, details with
  | .mismatch, [actual, expected] => .told (.mismatch "length" actual expected)
  | .mismatch, [actual, expected, what] => .told (.mismatch what.display actual expected)
  | .mismatch, details =>
    match mismatchSignature.check details.length with
    | .error fault => fault
    | .ok () => .stated .mismatch details
  | kind, details => .stated kind details

/-- **Message.** The text of a fault. -/
def Fault.message : Fault Float → String
  | .invalid why => why.message
  | .mismatch what actual expected =>
    what ++ " mismatch: got " ++ actual.display ++ ", expected " ++ expected.display ++ "."
  | .singular label => "stencil system for " ++ label ++ " is singular."
  | .bandwidthOverflow value =>
    "no power of two >= " ++ writeReal value ++ " is representable as a float."
  | .unsuitable why => why.message
  | .malformed why => why.message
  | .tooLarge why => why.message
  | .zeroDivision why => why.message
  | .index why => why.message
  | .noRoom => ""
  | .raised message => message
  | .attribute why => why.message
  | .frozen field => "cannot assign to field " ++ Text.quote field
  | .stated _ details => detailMessage details

end FiniteDifference
