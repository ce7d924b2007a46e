import FiniteDifference.Session
import FiniteDifference.Stencil.Exact
import FiniteDifference.Summation

/-!
# Cache requests

Coefficients through the cache of a session: each is generated on first use and counted as a miss,
and later exact lookups are hits.  A tensor stencil looks its axes up in the same cache.
-/

namespace FiniteDifference

variable [Memory] {α : Type}

namespace Cache

/-! ## Exact coefficients -/

/-- An exact lookup: stored coefficients are a hit, all others are generated and stored. -/
def lookupOr (d : Descriptor) (generate : Action α (List Rat)) : Action α (List Rat) := do
  match (← Action.cache).stored? d with
  | some coefficients =>
    Action.updateCache Cache.hit
    return coefficients
  | none =>
    Action.updateCache Cache.miss
    Action.note (.generating d)
    let coefficients ← generate
    Action.updateCache (·.store d coefficients)
    return coefficients

/-- The exact coefficients of a stencil. -/
def exactStencil (s : Stencil) : Action α (List Rat) :=
  lookupOr (.axis s) (Action.ofExcept (Coefficients.ofStencil s))

/-- The exact coefficients of a tensor stencil. -/
def exactTensor (t : Tensor) : Action α (List Rat) :=
  lookupOr (.tensor t) (Coefficients.ofTensor (α := α) exactStencil t)

/-- **Exact coefficients.** -/
def exactOf : Descriptor → Action α (List Rat)
  | .axis s => exactStencil s
  | .tensor t => exactTensor t

/-- The stencil of an argument whose coefficients are asked for. -/
def descriptorOf (a : Argument α) : Except (Fault α) Descriptor :=
  match a with
  | .descriptor d => .ok d
  | a => .error (.invalid (.notDescriptor a.kindName))

/-- The exact coefficients of an argument. -/
def exact (a : Argument α) : Action α (List Rat) := do
  exactOf (← Action.ofExcept (descriptorOf a))

/-! ## Scalar coefficients -/

variable [Scalar α]

/-- **Coefficients as scalars.** Stored ones are given without an exact lookup. -/
def scalarsOf (d : Descriptor) : Action α (List α) := do
  match (← Action.cache).scalars? d with
  | some coefficients => return coefficients
  | none =>
    let exact ← exactOf d
    let coefficients := exact.map Scalar.nearest
    Action.updateCache (·.storeScalars d coefficients)
    return coefficients

/-- Refuses an argument that cannot be a key of the cache. -/
def requireKey (a : Argument α) : Except (Fault α) Unit :=
  if a.isHashable then .ok () else .error (.unsuitable (.notHashable a.kindName))

/-- The coefficients of an argument as scalars. -/
def coefficients (a : Argument α) : Action α (List α) := do
  Action.ofExcept (requireKey a)
  scalarsOf (← Action.ofExcept (descriptorOf a))

/-- **The norm of a stencil.** The sum of the absolute values of its coefficients. -/
def norm (a : Argument α) : Action α α := do
  return Summation.sum ((← coefficients a).map Scalar.abs)

/-! ## Membership and removal -/

/-- Whether the exact coefficients of an argument are stored. -/
def member (a : Argument α) : Action α Bool := do
  Action.ofExcept (requireKey a)
  match a with
  | .descriptor d => return (← Action.cache).contains d
  | _ => return false

/-- Removes all entries and resets the counters. -/
def clear : Action α Unit := Action.updateCache fun _ => Cache.empty

end Cache

end FiniteDifference
