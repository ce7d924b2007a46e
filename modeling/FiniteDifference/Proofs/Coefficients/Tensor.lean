import FiniteDifference.Proofs.Cache.Sound
import FiniteDifference.Proofs.Coefficients.Moments
import FiniteDifference.Proofs.RowMajor.Order

/-!
# Coefficients of tensor stencils

The exact coefficients of a tensor stencil are the outer product of those of its axes, unless there are too
many grid points to be counted or no room for the grid of an axis.
-/

namespace FiniteDifference

variable {α : Type}

/-- **Coefficients.** The exact coefficients of a tensor stencil, one for each grid point. -/
def Tensor.coefficients (t : Tensor) : List ℚ := Coefficients.outer (t.axes.map Stencil.coefficients)

/-- The tensor stencil with one axis. -/
def Tensor.single (s : Stencil) : Tensor := ⟨[s], List.cons_ne_nil _ _⟩

namespace Tensor

theorem lengths_pos (t : Tensor) : ∀ n ∈ t.lengths, 0 < n := by
  intro n hn
  obtain ⟨s, -, rfl⟩ := List.mem_map.mp hn
  exact s.length_pos

theorem length_le_size (t : Tensor) {s : Stencil} (hs : s ∈ t.axes) : s.length ≤ t.size :=
  RowMajor.le_size t.lengths_pos (List.mem_map_of_mem hs)

end Tensor

namespace Coefficients

/-! ## Outer products -/

/-- An outer product has one entry for each choice of entries of the rows. -/
theorem length_outer (rows : List (List ℚ)) :
    (outer rows).length = RowMajor.size (rows.map List.length) := by
  induction rows with
  | nil => rfl
  | cons row rows ih =>
    rw [outer, List.length_flatMap]
    simp only [List.length_map, ih]
    rw [List.map_const', List.sum_replicate_nat, List.map_cons, RowMajor.size]

theorem length_outer_coefficients (axes : List Stencil) :
    (outer (axes.map Stencil.coefficients)).length = RowMajor.size (axes.map Stencil.length) := by
  rw [length_outer, List.map_map]
  exact congrArg RowMajor.size (List.map_congr_left fun s _ => s.length_coefficients)

/-- The rows of a tensor stencil are as long as its axes, so nothing of them is cut off. -/
theorem tensorProduct?_coefficients (t : Tensor) :
    tensorProduct? t.lengths (t.axes.map Stencil.coefficients) = some t.coefficients := by
  have hzip : t.lengths.zip (t.axes.map Stencil.coefficients)
      = t.axes.map fun s => (s.length, s.coefficients) := List.zip_map'
  have htake : ∀ s : Stencil, s.coefficients.take s.length = s.coefficients := fun s =>
    List.take_of_length_le s.length_coefficients.le
  rw [tensorProduct?, hzip, if_pos (by simp), List.map_map]
  simp only [Function.comp_def, htake]
  rfl

/-! ## Looking up the axes -/

variable [Memory]

/-- If there is room for the grid of every axis, all rows are found. -/
theorem mapM_ofStencil_eq_ok {axes : List Stencil} (h : ∀ s ∈ axes, s.length < Memory.room) :
    (axes.mapM ofStencil : Except (Fault α) (List (List ℚ)))
      = .ok (axes.map Stencil.coefficients) := by
  induction axes with
  | nil => rfl
  | cons s axes ih =>
    rw [List.forall_mem_cons] at h
    rw [List.mapM_cons, ofStencil_eq, if_pos h.1, ih h.2]
    rfl

/-- If all grids can be counted but there is no room for one of them, the rows are not found. -/
theorem mapM_ofStencil_eq_noRoom {axes : List Stencil}
    (hcount : ∀ s ∈ axes, s.length < RowMajor.sizeBound)
    (h : ¬∀ s ∈ axes, s.length < Memory.room) :
    (axes.mapM ofStencil : Except (Fault α) (List (List ℚ))) = .error .noRoom := by
  induction axes with
  | nil => simp at h
  | cons s axes ih =>
    rw [List.forall_mem_cons] at hcount h
    rw [List.mapM_cons, ofStencil_eq]
    -- the first axis without room ends the lookups
    by_cases hs : s.length < Memory.room
    · rw [if_pos hs, ih hcount.2 fun hall => h ⟨hs, hall⟩]
      rfl
    · rw [if_neg hs, if_pos hcount.1]
      rfl

end Coefficients

namespace Tensor

@[simp] theorem length_coefficients (t : Tensor) : t.coefficients.length = t.size :=
  Coefficients.length_outer_coefficients t.axes

/-- **Finding the coefficients.** If the grid points can be counted, the only obstacle is the room for the
grid of an axis. -/
theorem generated_eq [Memory] {t : Tensor} (hsize : t.size < RowMajor.sizeBound) :
    (Descriptor.tensor t).generated (α := α) =
      if ∀ s ∈ t.axes, s.length < Memory.room then .ok t.coefficients else .error .noRoom := by
  have hcounted : (RowMajor.countedSize t.lengths : Except (Fault α) ℕ) = .ok t.size := if_pos hsize
  show (t.axes.mapM Coefficients.ofStencil >>= fun rows => Coefficients.ofRows t.lengths rows) = _
  by_cases hroom : ∀ s ∈ t.axes, s.length < Memory.room
  · rw [if_pos hroom, Coefficients.mapM_ofStencil_eq_ok hroom]
    show Coefficients.ofRows t.lengths (t.axes.map Stencil.coefficients) = _
    rw [Coefficients.ofRows, hcounted, Coefficients.tensorProduct?_coefficients]
    rfl
  · rw [if_neg hroom, Coefficients.mapM_ofStencil_eq_noRoom
      (fun s hs => (t.length_le_size hs).trans_lt hsize) hroom]
    rfl

end Tensor

end FiniteDifference
