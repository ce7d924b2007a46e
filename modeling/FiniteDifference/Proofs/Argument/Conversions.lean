import FiniteDifference.Argument.Number
import FiniteDifference.Proofs.Outcomes
import FiniteDifference.Stencil.RowMajor

/-!
# Conversions of arguments

An argument that is converted to a number or to an array may be unsuitable, malformed or too large, but only
the checks of the library reject it.  A converted array has as many entries as its shape tells.
-/

namespace FiniteDifference

variable {α : Type}

/-! ## Rejections -/

/-- **Rejections.** The faults of the checks: invalid arguments and sizes that do not match. -/
def Fault.IsRejection (fault : Fault α) : Prop := fault.kind = .validation ∨ fault.kind = .mismatch

/-- Faults of any other kind are none. -/
theorem Fault.not_isRejection_of_kind {fault : Fault α} (kind : Kind)
    (hne : kind ≠ .validation ∧ kind ≠ .mismatch) (h : fault.kind = kind) : ¬fault.IsRejection := by
  rw [IsRejection, h, not_or]
  exact hne

namespace Argument

section Faults

variable [Scalar α] {fault : Fault α}

/-- A conversion to a scalar does not reject. -/
theorem not_isRejection_of_toScalar {a : Argument α} (h : a.toScalar = .error fault) :
    ¬fault.IsRejection := by
  cases a with
  | bool b => cases h
  | int i =>
    change scalarOfInt i = _ at h
    rw [scalarOfInt] at h
    split at h <;> cases h
    exact Fault.not_isRejection_of_kind .overflow (by decide) rfl
  | real x => cases h
  | fraction q =>
    change scalarOfRat q = _ at h
    rw [scalarOfRat] at h
    split at h <;> cases h
    exact Fault.not_isRejection_of_kind .overflow (by decide) rfl
  | text s =>
    rw [toScalar] at h
    split at h <;> cases h
    exact Fault.not_isRejection_of_kind .value (by decide) rfl
  | _ =>
    cases h
    exact Fault.not_isRejection_of_kind .type (by decide) rfl

/-- Entries are scalars unless the argument is absent. -/
theorem toEntry_cases (a : Argument α) : a = .absent ∨ a.toEntry = a.toScalar := by
  cases a with
  | absent => exact .inl rfl
  | _ => exact .inr rfl

theorem not_isRejection_of_toEntry {a : Argument α} (h : a.toEntry = .error fault) :
    ¬fault.IsRejection := by
  rcases toEntry_cases a with rfl | hscalar
  · cases h
  · exact not_isRejection_of_toScalar (hscalar.symm.trans h)

/-- **Conversions to arrays** do not reject. -/
theorem not_isRejection_of_toBlock {a : Argument α} (h : a.toBlock = .error fault) :
    ¬fault.IsRejection := by
  rcases bind_eq_error.mp h with hshape | ⟨shape, -, hrest⟩
  · rw [Extent.evenShape] at hshape
    split at hshape <;> cases hshape
    exact Fault.not_isRejection_of_kind .value (by decide) rfl
  · rcases bind_eq_error.mp hrest with hentries | ⟨entries, -, hpure⟩
    · obtain ⟨_, a, _, -, -, ha⟩ := mapM_eq_error_iff.mp hentries
      exact not_isRejection_of_toEntry ha
    · cases hpure

end Faults

/-! ## Shapes -/

/-- Extents that are even together have one shape. -/
theorem join_even {a b : Extent} (h : (Extent.join a b).uneven = false) :
    a.uneven = false ∧ b.uneven = false ∧ (Extent.join a b).shape = a.shape ∧ b.shape = a.shape := by
  have hself : ∀ shape : List ℕ, Extent.agreement shape shape = shape := by
    intro shape
    induction shape with
    | nil => rfl
    | cons n shape ih => rw [Extent.agreement, if_pos rfl, ih]
  simp only [Extent.join, Bool.or_eq_false_iff, bne_eq_false_iff_eq] at h ⊢
  obtain ⟨⟨ha, hb⟩, hshape⟩ := h
  exact ⟨ha, hb, by rw [← hshape, hself], hshape.symm⟩

/-- Only the empty list has no common extent. -/
theorem eq_nil_of_commonExtentWithin {axes : ℕ} {items : List (Argument α)}
    (h : commonExtentWithin axes items = none) : items = [] := by
  cases items with
  | nil => rfl
  | cons a items =>
    rw [commonExtentWithin] at h
    split at h <;> cases h

mutual

/-- **Leaves.** Nested lists of equal lengths have as many leaves as their shape tells. -/
theorem length_leaves_of_even (axes : ℕ) (a : Argument α)
    (h : (extentWithin axes a).uneven = false) :
    a.leaves.length = RowMajor.size (extentWithin axes a).shape := by
  cases a with
  | list items =>
    cases axes with
    | zero => cases h
    | succ axes =>
      cases hcommon : commonExtentWithin axes items with
      | none =>
        rw [extentWithin, hcommon, eq_nil_of_commonExtentWithin hcommon]
        rfl
      | some e =>
        rw [extentWithin, hcommon] at h ⊢
        exact length_leavesOfAll_of_even axes items hcommon h
  | _ => rfl

/-- So have the elements of a list together. -/
theorem length_leavesOfAll_of_even (axes : ℕ) (items : List (Argument α)) {e : Extent}
    (hcommon : commonExtentWithin axes items = some e) (h : e.uneven = false) :
    (leavesOfAll items).length = items.length * RowMajor.size e.shape := by
  cases items with
  | nil => cases hcommon
  | cons a items =>
    rw [commonExtentWithin] at hcommon
    rw [leavesOfAll, List.length_append, List.length_cons]
    cases hrest : commonExtentWithin axes items with
    | none =>
      rw [hrest] at hcommon
      cases hcommon
      rw [length_leaves_of_even axes a h, eq_nil_of_commonExtentWithin hrest, List.length_nil, Nat.zero_add,
        Nat.one_mul]
      rfl
    | some e' =>
      rw [hrest] at hcommon
      cases hcommon
      obtain ⟨ha, he', hshape, hshape'⟩ := join_even h
      rw [length_leaves_of_even axes a ha, length_leavesOfAll_of_even axes items hrest he', hshape, hshape']
      rw [Nat.add_mul, Nat.one_mul, Nat.add_comm]

end

/-- **Converted arrays** have as many entries as their shape tells. -/
theorem length_entries_of_toBlock [Scalar α] {a : Argument α} {block : Block α}
    (h : a.toBlock = .ok block) : block.entries.length = RowMajor.size block.shape := by
  obtain ⟨shape, hshape, hrest⟩ := bind_eq_ok.mp h
  obtain ⟨entries, hentries, hpure⟩ := bind_eq_ok.mp hrest
  cases hpure
  rw [Extent.evenShape] at hshape
  split at hshape
  · cases hshape
  · next heven =>
    cases hshape
    rw [← (mapM_eq_ok.mp hentries).length_eq]
    exact length_leaves_of_even _ a (Bool.eq_false_iff.mpr heven)

end Argument

end FiniteDifference
