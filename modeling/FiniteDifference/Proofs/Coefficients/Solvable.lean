import FiniteDifference.Proofs.Coefficients.Tensor

/-!
# Solvable stencils

The coefficients of a stencil of either kind are generated if there is room for the grid along every axis
and the grid points can be counted; in all other cases the generation has a fault.
-/

namespace FiniteDifference

variable [Memory] {α : Type}

namespace Descriptor

/-- The number of grid points. -/
def size : Descriptor → ℕ
  | .axis s => s.length
  | .tensor t => t.size

/-- **Solvable stencils.** There is room for the grid along every axis, and the grid points can be
counted. -/
def Solvable (d : Descriptor) : Prop :=
  (∀ s ∈ d.axes, s.length < Memory.room) ∧ d.size < RowMajor.sizeBound

instance : DecidablePred Solvable := fun d =>
  inferInstanceAs (Decidable ((∀ s ∈ d.axes, s.length < Memory.room) ∧ d.size < RowMajor.sizeBound))

/-- A stencil for one variable needs no more than room for its grid. -/
theorem solvable_axis (s : Stencil) : (axis s).Solvable ↔ s.length < Memory.room := by
  constructor
  · intro h
    exact h.1 s (List.mem_singleton_self s)
  · intro h
    refine ⟨fun s' hs' => ?_, h.trans Memory.room_lt⟩
    rwa [List.mem_singleton.mp hs']

theorem generated_of_solvable {d : Descriptor} (h : d.Solvable) :
    ∃ v, d.generated (α := α) = .ok v := by
  cases d with
  | axis s => exact ⟨_, (Coefficients.ofStencil_eq s).trans (if_pos ((solvable_axis s).mp h))⟩
  | tensor t => exact ⟨_, (Tensor.generated_eq h.2).trans (if_pos h.1)⟩

/-- If the grid points of a tensor stencil cannot be counted, there are no coefficients. -/
theorem generated_of_uncounted {t : Tensor} (h : RowMajor.sizeBound ≤ t.size) :
    ∃ fault, (tensor t).generated (α := α) = .error fault := by
  have hcounted : (RowMajor.countedSize t.lengths : Except (Fault α) ℕ) = .error (.tooLarge .size) :=
    if_neg (Nat.not_lt.mpr h)
  show ∃ fault, (t.axes.mapM Coefficients.ofStencil >>= fun rows =>
    Coefficients.ofRows t.lengths rows) = .error fault
  -- the axes are looked up first, and one of them may have a fault of its own
  cases t.axes.mapM Coefficients.ofStencil with
  | error fault => exact ⟨fault, rfl⟩
  | ok rows =>
    refine ⟨.tooLarge .size, ?_⟩
    show Coefficients.ofRows t.lengths rows = _
    rw [Coefficients.ofRows, hcounted]
    rfl

/-- A stencil that is not solvable has a fault: there is no room for it, or its grid points cannot be
counted. -/
theorem generated_of_not_solvable {d : Descriptor} (h : ¬d.Solvable) :
    ∃ fault, d.generated (α := α) = .error fault ∧
      (fault = .noRoom ∨ RowMajor.sizeBound ≤ d.size) := by
  cases d with
  | axis s =>
    rw [solvable_axis] at h
    show ∃ fault, Coefficients.ofStencil s = .error fault ∧ _
    rw [Coefficients.ofStencil_eq, if_neg h]
    by_cases hsize : s.length < RowMajor.sizeBound
    · exact ⟨.noRoom, if_pos hsize, .inl rfl⟩
    · exact ⟨.tooLarge .list, if_neg hsize, .inr (Nat.not_lt.mp hsize)⟩
  | tensor t =>
    by_cases hsize : t.size < RowMajor.sizeBound
    · have hroom : ¬∀ s ∈ t.axes, s.length < Memory.room := fun hroom => h ⟨hroom, hsize⟩
      exact ⟨.noRoom, (Tensor.generated_eq hsize).trans (if_neg hroom), .inl rfl⟩
    · obtain ⟨fault, hfault⟩ := generated_of_uncounted (α := α) (Nat.not_lt.mp hsize)
      exact ⟨fault, hfault, .inr (Nat.not_lt.mp hsize)⟩

/-- **Faults.** The stencils whose coefficients cannot be generated are those that are not solvable. -/
theorem exists_fault_iff (d : Descriptor) :
    (∃ fault, d.generated (α := α) = .error fault) ↔ ¬d.Solvable := by
  constructor
  · rintro ⟨fault, hfault⟩ hd
    obtain ⟨v, hv⟩ := generated_of_solvable (α := α) hd
    rw [hv] at hfault
    cases hfault
  · intro hd
    obtain ⟨fault, hfault, -⟩ := generated_of_not_solvable (α := α) hd
    exact ⟨fault, hfault⟩

/-- There is one generated coefficient for each grid point. -/
theorem length_of_generated {d : Descriptor} {v : List ℚ} (h : d.generated (α := α) = .ok v) :
    v.length = d.size := by
  have hd : d.Solvable := by
    by_contra hd
    obtain ⟨fault, hfault⟩ := (exists_fault_iff (α := α) d).mpr hd
    cases h.symm.trans hfault
  cases d with
  | axis s =>
    change Coefficients.ofStencil s = _ at h
    rw [Coefficients.ofStencil_eq, if_pos ((solvable_axis s).mp hd)] at h
    cases h
    exact s.length_coefficients
  | tensor t =>
    have hroom : ∀ s ∈ t.axes, s.length < Memory.room := hd.1
    rw [Tensor.generated_eq hd.2, if_pos hroom] at h
    cases h
    exact t.length_coefficients

/-- Unless there is no room, a fault means that the grid points cannot be counted. -/
theorem noRoom_or_uncounted {d : Descriptor} {fault : Fault α} (h : d.generated = .error fault) :
    fault = .noRoom ∨ RowMajor.sizeBound ≤ d.size := by
  obtain ⟨fault', hfault', hreason⟩ :=
    generated_of_not_solvable (α := α) ((exists_fault_iff d).mp ⟨fault, h⟩)
  rw [h] at hfault'
  rwa [Except.error.inj hfault']

end Descriptor

/-! ## Looking up the axes of a tensor stencil -/

/-- **Visited axes.** The axes up to the first one that is not solvable, which ends the lookups. -/
def visitedAxes : List Stencil → List Stencil
  | [] => []
  | s :: axes => if (Descriptor.axis s).Solvable then s :: visitedAxes axes else [s]

/-- All axes of a solvable tensor stencil are visited. -/
theorem visitedAxes_of_solvable {axes : List Stencil}
    (h : ∀ s ∈ axes, (Descriptor.axis s).Solvable) : visitedAxes axes = axes := by
  induction axes with
  | nil => rfl
  | cons s axes ih =>
    rw [List.forall_mem_cons] at h
    rw [visitedAxes, if_pos h.1, ih h.2]

theorem Descriptor.Solvable.axis {d : Descriptor} (h : d.Solvable) {s : Stencil} (hs : s ∈ d.axes) :
    (Descriptor.axis s).Solvable :=
  (Descriptor.solvable_axis s).mpr (h.1 s hs)

end FiniteDifference
