import FiniteDifference.Stencil.RowMajor

/-!
# Traversals in mixed radix

The successor of a multi-index carries like the successor of a number written in mixed radix, so the
multi-index that a traversal yields at a linear position is the list of the digits of this position.
-/

namespace FiniteDifference.RowMajor

/-! ## Digits -/

/-- The digits of zero are all zero. -/
theorem digits_zero (lengths : List Nat) : digits lengths 0 = origin lengths := by
  induction lengths with
  | nil => rfl
  | cons n lengths ih =>
    rw [digits, Nat.zero_div, Nat.zero_mod, ih]
    rfl

/-- The digits of a position that is split into rows of the later axes. -/
theorem digits_cons (n : Nat) {lengths : List Nat} (i : Nat) {j : Nat} (hj : j < size lengths) :
    digits (n :: lengths) (i * size lengths + j) = i :: digits lengths j := by
  have hdiv : (i * size lengths + j) / size lengths = i := by
    rw [Nat.add_comm, Nat.add_mul_div_right _ _ (by omega), Nat.div_eq_of_lt hj, Nat.zero_add]
  have hmod : (i * size lengths + j) % size lengths = j := by
    rw [Nat.add_comm, Nat.add_mul_mod_self_right, Nat.mod_eq_of_lt hj]
  rw [digits, hdiv, hmod]

/-- **Carrying.** The successor of the digits of a position are the digits of the next position, as long
as this is below the size. -/
theorem successor?_digits (lengths : List Nat) {j : Nat} (hj : j < size lengths) :
    successor? lengths (digits lengths j)
      = if j + 1 < size lengths then some (digits lengths (j + 1)) else none := by
  induction lengths generalizing j with
  | nil =>
    rw [size] at hj
    rw [size, if_neg (by omega)]
    rfl
  | cons n lengths ih =>
    rw [size] at hj
    have hpos : 0 < size lengths := Nat.pos_of_mul_pos_left (by omega : 0 < n * size lengths)
    have hlow : j % size lengths < size lengths := Nat.mod_lt j hpos
    have hhigh : j / size lengths < n := Nat.div_lt_of_lt_mul (by rwa [Nat.mul_comm])
    have hsplit : j / size lengths * size lengths + j % size lengths = j := Nat.div_add_mod' j _
    have hrows : (j / size lengths + 1) * size lengths ≤ n * size lengths :=
      Nat.mul_le_mul_right _ hhigh
    rw [Nat.add_mul, Nat.one_mul] at hrows
    rw [digits, successor?, ih hlow, size]
    by_cases hlast : j % size lengths + 1 < size lengths
    · -- The later axes can advance.
      have hnext : j + 1 = j / size lengths * size lengths + (j % size lengths + 1) := by omega
      have hbelow : j + 1 < n * size lengths := by omega
      rw [if_pos hlast, if_pos hbelow, hnext, digits_cons n _ hlast]
    · -- The later axes are exhausted: they carry and start again.
      have hnext : j + 1 = (j / size lengths + 1) * size lengths + 0 := by
        rw [Nat.add_mul, Nat.one_mul]
        omega
      rw [if_neg hlast, hnext, digits_cons n _ hpos, digits_zero]
      by_cases hcarry : j / size lengths + 1 < n
      · have hbelow : (j / size lengths + 1) * size lengths < n * size lengths :=
          Nat.mul_lt_mul_of_pos_right hcarry hpos
        simp only [if_pos hcarry, Nat.add_zero, if_pos hbelow]
        rfl
      · have hend : n = j / size lengths + 1 := by omega
        simp only [← hend, Nat.add_zero, Nat.lt_irrefl, if_false]

/-! ## Traversals -/

/-- The state of a traversal before it yields the multi-index at a linear position. -/
def cursorAt (lengths : List Nat) (j : Nat) : Cursor :=
  ⟨if j < size lengths then some (digits lengths j) else none, j⟩

/-- **One step of a traversal.** It yields the digits of its position with the position and moves on by
one. -/
theorem advance_cursorAt {lengths : List Nat} {j : Nat} (hj : j < size lengths) :
    advance lengths (cursorAt lengths j)
      = (some (digits lengths j, j), cursorAt lengths (j + 1)) := by
  simp only [advance, cursorAt, if_pos hj, successor?_digits lengths hj]

/-- The pairs that a traversal yields from a position on. -/
theorem collect_cursorAt {lengths : List Nat} (count j : Nat) (h : j + count ≤ size lengths) :
    collect lengths count (cursorAt lengths j)
      = (List.range' j count).map fun i => (digits lengths i, i) := by
  induction count generalizing j with
  | zero => rfl
  | succ count ih =>
    rw [collect, advance_cursorAt (by omega), List.range'_succ, List.map_cons, ← ih (j + 1) (by omega)]

/-- **Traversals.** They yield the digits of all linear positions in order. -/
theorem traversal_eq (lengths : List Nat) :
    traversal lengths = (List.range (size lengths)).map fun j => (digits lengths j, j) := by
  rw [traversal]
  by_cases h : size lengths = 0
  · rw [h]
    rfl
  · have hstart : start lengths = cursorAt lengths 0 := by
      rw [start, cursorAt, if_pos (by omega), digits_zero]
    rw [hstart, collect_cursorAt (size lengths) 0 (by omega), List.range_eq_range']

/-! ## Rows -/

/-- The positions of a rectangle, row by row. -/
theorem range_mul (n m : Nat) :
    List.range (n * m) = (List.range n).flatMap fun i => (List.range m).map (i * m + ·) := by
  induction n with
  | zero => rw [Nat.zero_mul]; rfl
  | succ n ih => rw [Nat.succ_mul, List.range_add, ih, List.range_succ, List.flatMap_append,
      List.flatMap_singleton]

/-- **Traversal by rows.** With a further axis in front, the multi-indices are those of the later axes
behind each index of this axis in turn. -/
theorem map_digits_cons {β : Type} (f : List Nat → β) (n : Nat) (lengths : List Nat) :
    (List.range (size (n :: lengths))).map (fun j => f (digits (n :: lengths) j))
      = (List.range n).flatMap fun i =>
          (List.range (size lengths)).map fun j => f (i :: digits lengths j) := by
  rw [size, range_mul, List.map_flatMap]
  refine congrArg (List.flatMap · (List.range n)) (funext fun i => ?_)
  rw [List.map_map]
  refine List.map_congr_left fun j hj => ?_
  rw [Function.comp_apply, digits_cons n i (List.mem_range.mp hj)]

end FiniteDifference.RowMajor
