import FiniteDifference.Proofs.Coefficients.Tensor

/-!
# Value axes

A stencil that takes no derivative has a single grid point and the coefficient one.  Inserted among the axes
of a tensor stencil it changes neither the number of grid points nor the exact coefficients, nor the fault
that asking for them may have.
-/

namespace FiniteDifference

variable {α : Type}

namespace Stencil

theorem left_of_order_eq_zero (s : Stencil) (h : s.order = 0) : s.left = 0 := by
  have hlen := s.length_of_order_eq_zero h
  rw [length] at hlen
  rw [left]
  omega

theorem coefficients_of_order_eq_zero (s : Stencil) (h : s.order = 0) : s.coefficients = [1] := by
  rw [coefficients, s.offsets_of_order_eq_zero h, h]
  decide +kernel

end Stencil

/-! ## Insertions -/

/-- **Inserted value axes.** The axes of the second list are those of the first, with stencils that take no
derivative among them.  The truth values tell which axes of the second list are axes of the first. -/
inductive ValuesInserted : List Bool → List Stencil → List Stencil → Prop
  | nil : ValuesInserted [] [] []
  | own {mask : List Bool} {axes larger : List Stencil} (s : Stencil)
      (rest : ValuesInserted mask axes larger) :
      ValuesInserted (true :: mask) (s :: axes) (s :: larger)
  | value {mask : List Bool} {axes larger : List Stencil} {v : Stencil} (hv : v.order = 0)
      (rest : ValuesInserted mask axes larger) : ValuesInserted (false :: mask) axes (v :: larger)

namespace ValuesInserted

variable {mask : List Bool} {axes larger : List Stencil}

theorem refl (axes : List Stencil) : ValuesInserted (axes.map fun _ => true) axes axes := by
  induction axes with
  | nil => exact .nil
  | cons s axes ih => exact .own s ih

/-- **Sizes.** The number of grid points stays. -/
theorem size_eq (h : ValuesInserted mask axes larger) :
    RowMajor.size (larger.map Stencil.length) = RowMajor.size (axes.map Stencil.length) := by
  induction h with
  | nil => rfl
  | own s rest ih => rw [List.map_cons, List.map_cons, RowMajor.size, RowMajor.size, ih]
  | @value _ _ _ v hv rest ih =>
    rw [List.map_cons, RowMajor.size, v.length_of_order_eq_zero hv, Nat.one_mul, ih]

/-- **Outer products.** The coefficients stay. -/
theorem outer_eq (h : ValuesInserted mask axes larger) :
    Coefficients.outer (larger.map Stencil.coefficients)
      = Coefficients.outer (axes.map Stencil.coefficients) := by
  induction h with
  | nil => rfl
  | own s rest ih => rw [List.map_cons, List.map_cons, Coefficients.outer, Coefficients.outer, ih]
  | @value _ _ _ v hv rest ih =>
    rw [List.map_cons, Coefficients.outer, v.coefficients_of_order_eq_zero hv, ih]
    simp

/-- **Rows.** The rows of the larger list are found when those of the list are, and their fault is the
same. -/
theorem mapM_ofStencil_eq [Memory] (h : ValuesInserted mask axes larger) :
    (larger.mapM Coefficients.ofStencil : Except (Fault α) (List (List ℚ)))
      = (axes.mapM Coefficients.ofStencil).map fun _ => larger.map Stencil.coefficients := by
  induction h with
  | nil => rfl
  | own s rest ih =>
    rw [List.mapM_cons, List.mapM_cons, ih, Coefficients.ofStencil_eq_map]
    cases (s.listedOffsets : Except (Fault α) (List ℤ)) with
    | error fault => rfl
    | ok offsets =>
      cases List.mapM (Coefficients.ofStencil (α := α)) _ with
      | error fault => rfl
      | ok rows => rfl
  | @value _ axes _ v hv rest ih =>
    -- a grid of one point is always found
    rw [List.mapM_cons, ih, Coefficients.ofStencil_eq, v.length_of_order_eq_zero hv,
      if_pos Memory.one_lt_room]
    cases axes.mapM (Coefficients.ofStencil (α := α)) with
    | error fault => rfl
    | ok rows => rfl

end ValuesInserted

/-! ## Coefficients -/

/-- The tensor coefficients of the rows of the axes are found if the grid points can be counted. -/
theorem Coefficients.ofRows_coefficients (t : Tensor) :
    (ofRows t.lengths (t.axes.map Stencil.coefficients) : Except (Fault α) (List ℚ))
      = (RowMajor.countedSize t.lengths).map fun _ => t.coefficients := by
  rw [ofRows, tensorProduct?_coefficients]
  cases (RowMajor.countedSize t.lengths : Except (Fault α) ℕ) with
  | error fault => rfl
  | ok size => rfl

/-- **Value axes change no coefficients.** Asking for them has the same outcome, also where it fails. -/
theorem ValuesInserted.generated_eq [Memory] {mask : List Bool} {t larger : Tensor}
    (h : ValuesInserted mask t.axes larger.axes) :
    (Descriptor.tensor larger).generated (α := α) = (Descriptor.tensor t).generated := by
  have hsize : (RowMajor.countedSize larger.lengths : Except (Fault α) ℕ)
      = RowMajor.countedSize t.lengths := by
    rw [RowMajor.countedSize, RowMajor.countedSize, Tensor.lengths, h.size_eq, Tensor.lengths]
  have hcoefficients : larger.coefficients = t.coefficients := h.outer_eq
  -- the rows of either tensor stencil are found when those of the smaller one are
  show (larger.axes.mapM Coefficients.ofStencil >>= Coefficients.ofRows larger.lengths)
    = t.axes.mapM Coefficients.ofStencil >>= Coefficients.ofRows t.lengths
  rw [h.mapM_ofStencil_eq, (refl t.axes).mapM_ofStencil_eq]
  cases t.axes.mapM (Coefficients.ofStencil (α := α)) with
  | error fault => rfl
  | ok rows =>
    show Coefficients.ofRows larger.lengths _ = Coefficients.ofRows t.lengths _
    rw [Coefficients.ofRows_coefficients, Coefficients.ofRows_coefficients, hsize, hcoefficients]

end FiniteDifference
