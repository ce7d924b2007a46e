import FiniteDifference.Argument.Uniform
import FiniteDifference.Validation

/-!
# Rounding bandwidths up

A bandwidth that is a power of two leaves the grid points free of rounding errors over a wide range, so
bandwidths can be rounded up to the next power of two.
-/

namespace FiniteDifference.PowerOfTwo

variable {α : Type} [Scalar α]

/-- **Rounding up.** The least power of two that is at least a positive bandwidth. -/
def roundUp (a : Argument α) : Except (Fault α) α := do
  let h ← Validation.requirePositive a "bandwidth"
  match Scalar.ceilPowerOfTwo? h.val with
  | some rounded => return rounded
  | none => throw (.bandwidthOverflow h.val)

/-! ## Vectors

The entries of a vector are those of a uniform array, so truth values beside numbers are numbers, and one
text or complex number keeps every entry from being a bandwidth. -/

/-- An entry of a vector of a common kind, as the check of a bandwidth sees it. -/
def entryOf (common : Common) (a : Argument α) : Except (Fault α) (Argument α) :=
  match common, a with
  | .complexes, _ => .error (.invalid (.notReal "bandwidth" "complex128"))
  | .texts, _ => .error (.invalid (.notReal "bandwidth" "str_"))
  | .truths, a => .ok a
  | .mixed, a => .ok a
  | _, .bool b => .ok (.int (if b then 1 else 0))
  | _, a => .ok a

/-- **Rounding a vector up.** The entries of nested lists, each rounded up. -/
def roundUpAll (a : Argument α) : Except (Fault α) (List α) := do
  let _ ← a.extent.evenShape
  let entries := a.leaves
  let common := Common.ofList entries
  entries.mapM fun entry => do roundUp (← entryOf common entry)

end FiniteDifference.PowerOfTwo
