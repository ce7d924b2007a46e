import FiniteDifference.Proofs.RowMajor.Traversal

/-!
# Writing along a traversal

A traversal that writes a value to each linear position overwrites a list of the same size: before each write
the list is `overwritten` in front of the position, and from there on it is what it was.
-/

namespace FiniteDifference.RowMajor

variable {β : Type} (value : List Nat → β) (lengths : List Nat) {flat : List β}

/-- The list before the write at a linear position: the values in front of the position, and what the list held
from there on. -/
def overwritten (flat : List β) (j : Nat) : List β :=
  ((List.range j).map fun i => value (digits lengths i)) ++ flat.drop j

theorem overwritten_zero (flat : List β) : overwritten value lengths flat 0 = flat := rfl

theorem overwritten_length (flat : List β) :
    overwritten value lengths flat flat.length
      = (List.range flat.length).map fun i => value (digits lengths i) := by
  rw [overwritten, List.drop_length, List.append_nil]

/-- **One write.** It replaces the first of the elements that are left by the value at its linear position. -/
theorem set_overwritten {j : Nat} (hj : j < flat.length) :
    (overwritten value lengths flat j).set j (value (digits lengths j))
      = overwritten value lengths flat (j + 1) := by
  -- the position is the first one behind the values
  have hrest : (flat.drop j).set 0 (value (digits lengths j))
      = value (digits lengths j) :: flat.drop (j + 1) := by
    rw [List.drop_eq_getElem_cons hj, List.set_cons_zero]
  unfold overwritten
  rw [List.set_append_right _ _ (by simp), List.range_succ]
  simp [hrest]

/-- **Successive writes.** They overwrite the list up to the position after the last of them. -/
theorem foldl_set_overwritten (count j : Nat) (hcount : j + count ≤ flat.length) :
    ((List.range' j count).map fun i => (digits lengths i, i)).foldl
        (fun flat visited => flat.set visited.2 (value visited.1)) (overwritten value lengths flat j)
      = overwritten value lengths flat (j + count) := by
  induction count generalizing j with
  | zero => rfl
  | succ count ih =>
    rw [List.range'_succ, List.map_cons, List.foldl_cons, set_overwritten value lengths (by omega),
      ih (j + 1) (by omega), Nat.add_right_comm, Nat.add_assoc]

/-- **Writing along a traversal.** Nothing is left of what a list of the right length held before. -/
theorem foldl_set_traversal (hlength : flat.length = size lengths) :
    (traversal lengths).foldl (fun flat visited => flat.set visited.2 (value visited.1)) flat
      = (List.range (size lengths)).map fun j => value (digits lengths j) := by
  have hall : 0 + flat.length ≤ flat.length := by omega
  have hwrites := foldl_set_overwritten value lengths flat.length 0 hall
  rw [overwritten_zero, Nat.zero_add, overwritten_length, hlength] at hwrites
  rw [traversal_eq, List.range_eq_range', hwrites, List.range_eq_range']

end FiniteDifference.RowMajor
