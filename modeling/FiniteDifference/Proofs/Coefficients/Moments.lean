import FiniteDifference.Proofs.Coefficients.Interpolation
import FiniteDifference.Proofs.Stencil.Grid
import FiniteDifference.Stencil.Exact

/-!
# Moments of stencils

The exact coefficients of a stencil exist, one for each grid point, and their moments below the number of
points select the derivative: the factorial of the order at that power and zero at every other one.
-/

namespace FiniteDifference

open Polynomial

/-! ## The coefficients of a stencil -/

/-- **Coefficients.** The exact coefficients of a stencil, one for each offset. -/
def Stencil.coefficients (s : Stencil) : List ℚ :=
  s.offsets.map (Coefficients.weight s.offsets s.order)

@[simp] theorem Stencil.length_coefficients (s : Stencil) : s.coefficients.length = s.length := by
  rw [coefficients, List.length_map, length_offsets]

namespace Coefficients

variable {α : Type}

/-- Solving the grid of a stencil succeeds: its order is in range and no offset is repeated. -/
theorem ofGrid_offsets (s : Stencil) :
    (ofGrid s.offsets s.order s.label : Except (Fault α) (List ℚ)) = .ok s.coefficients := by
  rw [ofGrid, if_pos (by rw [s.length_offsets]; exact s.order_lt_length), solve?,
    if_pos s.nodup_offsets]
  rfl

/-- The coefficients of a stencil are found unless its offsets cannot be listed. -/
theorem ofStencil_eq_map [Memory] (s : Stencil) :
    (ofStencil s : Except (Fault α) (List ℚ)) = s.listedOffsets.map fun _ => s.coefficients := by
  unfold ofStencil Stencil.listedOffsets
  split
  · rfl
  · split
    · rfl
    · exact ofGrid_offsets s

/-- **Finding the coefficients.** The only obstacle is the length of the grid. -/
theorem ofStencil_eq [Memory] (s : Stencil) :
    (ofStencil s : Except (Fault α) (List ℚ)) =
      if s.length < Memory.room then .ok s.coefficients
      else if s.length < RowMajor.sizeBound then .error .noRoom
      else .error (.tooLarge .list) := by
  rw [ofStencil_eq_map, s.map_listedOffsets]

/-! ## Moments below the number of points -/

theorem moment_coefficients (s : Stencil) (k : ℕ) :
    moment s.offsets s.coefficients k = weightedSum s.offsets s.order (X ^ k) :=
  moment_map_weight s.offsets s.order k

/-- The moments below the number of points. -/
theorem moment_coefficients_of_lt (s : Stencil) {k : ℕ} (hk : k < s.length) :
    moment s.offsets s.coefficients k = if k = s.order then (s.order.factorial : ℚ) else 0 :=
  moment_map_weight_of_lt s.nodup_offsets s.order (by rwa [s.length_offsets])

/-- **Moments of stencils.** The order of a stencil is below its number of points and its offsets are
distinct, so its grid is always solved, by one coefficient per point; the stencil itself has these
coefficients unless its offsets cannot be listed.  Among the moments below the number of points, the one
at the order is its factorial and all others vanish. -/
theorem moments_select_derivative [Memory] (s : Stencil) :
    s.order < s.length ∧ s.offsets.Nodup ∧
      (ofGrid s.offsets s.order s.label : Except (Fault α) (List ℚ)) = .ok s.coefficients ∧
      (ofStencil s : Except (Fault α) (List ℚ)) =
        (if s.length < Memory.room then .ok s.coefficients
        else if s.length < RowMajor.sizeBound then .error .noRoom
        else .error (.tooLarge .list)) ∧
      s.coefficients.length = s.length ∧
      ∀ greatest : ℤ, (moments s.offsets s.coefficients greatest).take s.length =
        ((List.range (greatest + 1).toNat).take s.length).map fun k =>
          if k = s.order then (s.order.factorial : ℚ) else 0 := by
  refine ⟨s.order_lt_length, s.nodup_offsets, ofGrid_offsets s, ofStencil_eq s,
    s.length_coefficients, fun greatest => ?_⟩
  rw [moments, ← List.map_take]
  refine List.map_congr_left fun k hk => moment_coefficients_of_lt s ?_
  rw [List.take_range, List.mem_range] at hk
  omega

end Coefficients

end FiniteDifference
