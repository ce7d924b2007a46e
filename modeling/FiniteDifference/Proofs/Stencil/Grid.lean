import FiniteDifference.Stencil.Basic
import FiniteDifference.Stencil.RowMajor
import Mathlib.Data.Int.Notation
import Mathlib.Data.List.Nodup

/-!
# Grids

The grid of a stencil is an interval of integers around zero.  Its number of points is the sum of the two
orders, except that a central stencil of even order has one point less, and it always exceeds the order
of the derivative.
-/

namespace FiniteDifference.Stencil

/-! ## Offsets -/

/-- The offsets are the integers between the two ends of the grid. -/
theorem mem_offsets (s : Stencil) (o : ℤ) : o ∈ s.offsets ↔ s.left ≤ o ∧ o ≤ s.right := by
  simp only [offsets, List.mem_map, List.mem_range, left, right, length]
  constructor
  · rintro ⟨i, hi, rfl⟩
    omega
  · rintro ⟨hleft, hright⟩
    exact ⟨(o + s.behind).toNat, by omega, by omega⟩

theorem zero_mem_offsets (s : Stencil) : (0 : ℤ) ∈ s.offsets := by
  rw [mem_offsets, left, right]
  omega

theorem nodup_offsets (s : Stencil) : s.offsets.Nodup := by
  refine List.Nodup.map ?_ List.nodup_range
  intro i j hij
  have hsum : s.left + (i : ℤ) = s.left + (j : ℤ) := hij
  omega

/-- A list without repetition that holds the same integers lists the same grid in another order. -/
theorem offsets_perm (s : Stencil) {grid : List ℤ} (h : grid.Nodup)
    (hmem : ∀ o, o ∈ grid ↔ s.left ≤ o ∧ o ≤ s.right) : s.offsets.Perm grid := by
  rw [List.perm_ext_iff_of_nodup s.nodup_offsets h]
  intro o
  rw [mem_offsets, hmem]

/-! ## The number of points -/

theorem accuracy_eq_zero (s : Stencil) (h : s.order = 0) : s.accuracy = 0 := by
  rcases s.accepted with ⟨-, hacc⟩ | ⟨hpos, -, -⟩
  · exact hacc
  · omega

theorem accuracy_pos (s : Stencil) (h : 0 < s.order) : 0 < s.accuracy := by
  rcases s.accepted with ⟨hzero, -⟩ | ⟨-, hpos, -⟩
  · omega
  · exact hpos

theorem accuracy_even (s : Stencil) (h : s.placement = .central) : s.accuracy % 2 = 0 := by
  rcases s.accepted with ⟨-, hacc⟩ | ⟨-, -, heven⟩
  · omega
  · exact heven h

theorem length_of_order_eq_zero (s : Stencil) (h : s.order = 0) : s.length = 1 := by
  have hacc := s.accuracy_eq_zero h
  rcases hp : s.placement <;> simp [length, behind, ahead, span, hp, h, hacc]

/-- Without a derivative the grid is the point alone. -/
theorem offsets_of_order_eq_zero (s : Stencil) (h : s.order = 0) : s.offsets = [0] := by
  have hlen := s.length_of_order_eq_zero h
  refine List.perm_singleton.mp (s.offsets_perm (List.nodup_singleton 0) fun o => ?_)
  rw [length] at hlen
  simp only [List.mem_singleton, left, right]
  omega

/-- The grid on one side of the point has as many points as the sum of the orders. -/
theorem length_of_ne_central (s : Stencil) (hpos : 0 < s.order) (h : s.placement ≠ .central) :
    s.length = s.order + s.accuracy := by
  rcases hp : s.placement
  · simp only [length, behind, ahead, span, hp]
    omega
  · simp only [length, behind, ahead, span, hp]
    omega
  · exact absurd hp h

/-- So has the central grid for an odd derivative. -/
theorem length_of_odd (s : Stencil) (h : s.order % 2 = 1) :
    s.length = s.order + s.accuracy := by
  by_cases hp : s.placement = .central
  · have heven := s.accuracy_even hp
    simp only [length, behind, ahead, span, hp]
    omega
  · exact s.length_of_ne_central (by omega) hp

/-- The central grid for an even derivative has one point less. -/
theorem length_of_central_even (s : Stencil) (hpos : 0 < s.order) (hp : s.placement = .central)
    (h : s.order % 2 = 0) : s.length + 1 = s.order + s.accuracy := by
  have heven := s.accuracy_even hp
  have hacc := s.accuracy_pos hpos
  simp only [length, behind, ahead, span, hp]
  omega

/-- **The number of points.** With a derivative it is the sum of the orders, or one less for the central
grid of an even derivative. -/
theorem length_eq_or (s : Stencil) (hpos : 0 < s.order) :
    s.length = s.order + s.accuracy ∨
      (s.placement = .central ∧ s.order % 2 = 0 ∧ s.length + 1 = s.order + s.accuracy) := by
  by_cases hp : s.placement = .central
  · rcases Nat.mod_two_eq_zero_or_one s.order with heven | hodd
    · exact Or.inr ⟨hp, heven, s.length_of_central_even hpos hp heven⟩
    · exact Or.inl (s.length_of_odd hodd)
  · exact Or.inl (s.length_of_ne_central hpos hp)

/-- The number of points exceeds the order of the derivative. -/
theorem order_lt_length (s : Stencil) : s.order < s.length := by
  rcases Nat.eq_zero_or_pos s.order with h | h
  · rw [h]
    exact s.length_pos
  · have hacc := s.accuracy_pos h
    rcases s.length_eq_or h with hlen | ⟨hp, -, hlen⟩
    · omega
    · -- the accuracy is even and positive, so it is at least two
      have heven := s.accuracy_even hp
      omega

/-! ## A grid that cannot be counted -/

/-- The forward first derivative of an accuracy so high that its grid points cannot be counted. -/
def uncountedForward : Stencil := ⟨.forward, 1, 0x8000000000000000, by decide⟩

theorem not_counted_uncountedForward : ¬uncountedForward.length < RowMajor.sizeBound := by
  decide +kernel

end FiniteDifference.Stencil
