import FiniteDifference.Stencil.Coefficients

/-!
# Coefficient caches

A cache keeps the exact coefficients of stencils and tensor stencils and the coefficients of either as
scalars, in the order in which they were stored, and counts the exact lookups that it answered and
those that it did not.
-/

namespace FiniteDifference

/-- **Caches.** -/
structure Cache (α : Type) where
  stencils : List (Stencil × List Rat)
  tensors : List (Tensor × List Rat)
  scalars : List (Descriptor × List α)
  hits : Nat
  misses : Nat

namespace Cache

variable {α : Type}

/-- The cache without entries. -/
def empty : Cache α := ⟨[], [], [], 0, 0⟩

/-- The number of stored exact coefficient vectors. -/
def size (c : Cache α) : Nat := c.stencils.length + c.tensors.length

/-- The stored exact coefficients of a stencil of either kind. -/
def stored? (c : Cache α) : Descriptor → Option (List Rat)
  | .axis s => c.stencils.lookup s
  | .tensor t => c.tensors.lookup t

/-- The stored scalar coefficients of a stencil of either kind. -/
def scalars? (c : Cache α) (d : Descriptor) : Option (List α) := c.scalars.lookup d

/-- Whether the exact coefficients of a stencil are stored. -/
def contains (c : Cache α) (d : Descriptor) : Bool := (c.stored? d).isSome

/-- Counts a lookup that was answered. -/
def hit (c : Cache α) : Cache α := { c with hits := c.hits + 1 }

/-- Counts a lookup that was not answered. -/
def miss (c : Cache α) : Cache α := { c with misses := c.misses + 1 }

/-- Stores exact coefficients; an entry that is there already stays. -/
def store (c : Cache α) (d : Descriptor) (coefficients : List Rat) : Cache α :=
  if c.contains d then c
  else
    match d with
    | .axis s => { c with stencils := c.stencils ++ [(s, coefficients)] }
    | .tensor t => { c with tensors := c.tensors ++ [(t, coefficients)] }

/-- Stores scalar coefficients; an entry that is there already stays. -/
def storeScalars (c : Cache α) (d : Descriptor) (coefficients : List α) : Cache α :=
  if (c.scalars? d).isSome then c
  else { c with scalars := c.scalars ++ [(d, coefficients)] }

end Cache

end FiniteDifference
