import FiniteDifference.Argument.Nested

/-!
# Broadcasting

Two arrays are combined entry by entry after their shapes have been aligned at the last axis: an axis of
length one is stretched to the length of its partner, and a missing axis counts as one of length one.
-/

namespace FiniteDifference.Block

variable {α β γ : Type}

/-- The common length of two axes. -/
def commonLength? (m n : Nat) : Option Nat :=
  if m = n then some m else if m = 1 then some n else if n = 1 then some m else none

/-- The common axes of two shapes, the last axis first. -/
def commonAxes? : List Nat → List Nat → Option (List Nat)
  | [], axes => some axes
  | axes, [] => some axes
  | m :: left, n :: right => do return (← commonLength? m n) :: (← commonAxes? left right)

/-- **Common shape.** None if two aligned axes have different lengths and neither is one. -/
def commonShape? (left right : List Nat) : Option (List Nat) :=
  (commonAxes? left.reverse right.reverse).map List.reverse

/-- The entries of an array with axis lengths `shape` after each axis of length one has been stretched
to the length of the target. -/
def stretch : List Nat → List Nat → List α → List α
  | n :: target, m :: shape, entries =>
    let parts := ((slabs (RowMajor.size shape) m entries).map (stretch target shape)).flatten
    if m = n then parts else (List.replicate n parts).flatten
  | _, _, entries => entries

/-- The entries of an array stretched to a shape that has at least as many axes. -/
def entriesAt (target : List Nat) (b : Block α) : List α :=
  stretch target (List.replicate (target.length - b.shape.length) 1 ++ b.shape) b.entries

/-- **Combining arrays.** None if their shapes have no common one. -/
def zipWith? (f : α → β → γ) (a : Block α) (b : Block β) : Option (Block γ) :=
  (commonShape? a.shape b.shape).map fun shape =>
    ⟨shape, List.zipWith f (a.entriesAt shape) (b.entriesAt shape)⟩

/-- Applies a function to every entry. -/
def map (f : α → β) (b : Block α) : Block β := ⟨b.shape, b.entries.map f⟩

/-- Performs the computations that are the entries, in row-major order. -/
def sequence {m : Type → Type} [Monad m] (b : Block (m α)) : m (Block α) := do
  return ⟨b.shape, ← b.entries.mapM id⟩

/-- A number as an array without axes. -/
def single (x : α) : Block α := ⟨[], [x]⟩

/-- The number of an array without axes. -/
def single? (b : Block α) : Option α := if b.shape = [] then b.entries.head? else none

end FiniteDifference.Block
