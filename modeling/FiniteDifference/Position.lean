/-!
# Positions

Where an index points in a list: indices from zero on count from the front, negative ones from the
end.
-/

namespace FiniteDifference

/-- **Places.** The place in a list of a given size at which an index points. -/
def place? (size : Nat) (i : Int) : Option Nat :=
  let k := if i < 0 then i + size else i
  if 0 ≤ k ∧ k < size then some k.toNat else none

theorem lt_of_place? {size k : Nat} {i : Int} (h : place? size i = some k) : k < size := by
  unfold place? at h
  split at h <;> grind

end FiniteDifference
