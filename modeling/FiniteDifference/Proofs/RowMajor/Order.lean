import FiniteDifference.Proofs.RowMajor.Traversal
import Mathlib.Algebra.BigOperators.Group.List.Basic
import Mathlib.Data.List.Forall2

/-!
# Digits and linear positions

The linear position of a multi-index and the digits of a linear position are inverse to each other
between the multi-indices within the axes and the positions below the size, and they keep the order:
a later position has the lexicographically larger digits.
-/

namespace FiniteDifference.RowMajor

/-! ## Sizes -/

theorem size_eq_prod (lengths : List ℕ) : size lengths = lengths.prod := by
  induction lengths with
  | nil => rfl
  | cons n lengths ih => rw [size, ih, List.prod_cons]

/-- The size of a space is positive, if every axis has points. -/
theorem size_pos {lengths : List ℕ} (h : ∀ n ∈ lengths, 0 < n) : 0 < size lengths := by
  induction lengths with
  | nil => exact Nat.one_pos
  | cons n lengths ih =>
    rw [List.forall_mem_cons] at h
    exact Nat.mul_pos h.1 (ih h.2)

/-- No axis is longer than the size of a space. -/
theorem le_size {lengths : List ℕ} (h : ∀ n ∈ lengths, 0 < n) {n : ℕ} (hn : n ∈ lengths) :
    n ≤ size lengths := by
  induction lengths with
  | nil => exact absurd hn List.not_mem_nil
  | cons m lengths ih =>
    rw [List.forall_mem_cons] at h
    rw [size]
    rcases List.mem_cons.mp hn with rfl | hn
    · exact Nat.le_mul_of_pos_right _ (size_pos h.2)
    · exact Nat.le_trans (ih h.2 hn) (Nat.le_mul_of_pos_left _ h.1)

/-- A position within a space splits into a row of the first axis and a position within the later
axes. -/
theorem split_lt {n : ℕ} {lengths : List ℕ} {j : ℕ} (hj : j < size (n :: lengths)) :
    j / size lengths < n ∧ j % size lengths < size lengths := by
  rw [size] at hj
  have hpos : 0 < size lengths := Nat.pos_of_mul_pos_left (by omega : 0 < n * size lengths)
  constructor
  · exact Nat.div_lt_of_lt_mul (by rwa [Nat.mul_comm])
  · exact Nat.mod_lt j hpos

/-! ## Multi-indices within the axes -/

/-- The digits of a position lie within the axes. -/
theorem forall₂_digits {lengths : List ℕ} {j : ℕ} (hj : j < size lengths) :
    List.Forall₂ (· < ·) (digits lengths j) lengths := by
  induction lengths generalizing j with
  | nil => exact .nil
  | cons n lengths ih =>
    obtain ⟨hrow, hrest⟩ := split_lt hj
    exact .cons hrow (ih hrest)

/-- The last multi-index lies within the axes. -/
theorem forall₂_last {lengths : List ℕ} (hpos : ∀ n ∈ lengths, 0 < n) :
    List.Forall₂ (· < ·) (lengths.map (· - 1)) lengths := by
  rw [List.forall₂_map_left_iff, List.forall₂_same]
  intro n hn
  exact Nat.sub_lt (hpos n hn) Nat.one_pos

/-- The linear position of the digits of a position is this position. -/
theorem position_digits {lengths : List ℕ} {j : ℕ} (hj : j < size lengths) :
    position lengths (digits lengths j) = j := by
  induction lengths generalizing j with
  | nil =>
    rw [size] at hj
    rw [digits, position]
    · omega
    · rintro _ _ _ _ h -
      cases h
  | cons n lengths ih =>
    obtain ⟨-, hrest⟩ := split_lt hj
    rw [digits, position, ih hrest]
    exact Nat.div_add_mod' j _

/-- The linear position of a multi-index within the axes is below the size. -/
theorem position_lt_size {lengths index : List ℕ} (h : List.Forall₂ (· < ·) index lengths) :
    position lengths index < size lengths := by
  induction h with
  | nil => exact Nat.one_pos
  | @cons i n index lengths hi h ih =>
    rw [position, size]
    have hrow : (i + 1) * size lengths ≤ n * size lengths := Nat.mul_le_mul_right _ hi
    rw [Nat.add_mul, Nat.one_mul] at hrow
    omega

/-- The digits of the linear position of a multi-index within the axes are this multi-index. -/
theorem digits_position {lengths index : List ℕ} (h : List.Forall₂ (· < ·) index lengths) :
    digits lengths (position lengths index) = index := by
  induction h with
  | nil => rfl
  | @cons i n index lengths hi h ih =>
    rw [position, digits_cons n i (position_lt_size h), ih]

/-- **Completeness.** The multi-indices within the axes are the digits of the positions below the
size, each of exactly one of them. -/
theorem forall₂_iff_existsUnique_digits {lengths index : List ℕ} :
    List.Forall₂ (· < ·) index lengths ↔ ∃! j, j < size lengths ∧ digits lengths j = index := by
  constructor
  · intro h
    refine ⟨position lengths index, ⟨position_lt_size h, digits_position h⟩, ?_⟩
    rintro j ⟨hj, rfl⟩
    exact (position_digits hj).symm
  · rintro ⟨j, ⟨hj, rfl⟩, -⟩
    exact forall₂_digits hj

/-! ## Order -/

/-- **Lexicographic order.** A later position has the larger digits. -/
theorem digits_lt_digits {lengths : List ℕ} {i j : ℕ} (hij : i < j) (hj : j < size lengths) :
    digits lengths i < digits lengths j := by
  induction lengths generalizing i j with
  | nil =>
    rw [size] at hj
    omega
  | cons n lengths ih =>
    obtain ⟨-, hrest⟩ := split_lt hj
    have hrows : i / size lengths ≤ j / size lengths := Nat.div_le_div_right (Nat.le_of_lt hij)
    rw [digits, digits, List.cons_lt_cons_iff]
    rcases Nat.lt_or_eq_of_le hrows with hrow | hrow
    · exact Or.inl hrow
    · -- Within one row the later axes decide.
      have hi : i / size lengths * size lengths + i % size lengths = i := Nat.div_add_mod' i _
      have hj' : j / size lengths * size lengths + j % size lengths = j := Nat.div_add_mod' j _
      rw [hrow] at hi
      exact Or.inr ⟨hrow, ih (by omega) hrest⟩

end FiniteDifference.RowMajor
