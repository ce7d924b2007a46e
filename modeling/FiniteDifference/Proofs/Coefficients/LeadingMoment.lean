import FiniteDifference.Proofs.Coefficients.Solvable
import FiniteDifference.Proofs.Coefficients.TruncationOrder
import FiniteDifference.Proofs.Coefficients.Uniqueness
import Mathlib.Order.Bounds.Basic

/-!
# The search for the leading moment

The truncation order is looked for among finitely many powers.  No moment beyond them is missed, whatever the
coefficients are: as many vanishing moments in a row as there are offsets leave no coefficient but the one
at zero, which has no moment but the first.
-/

namespace FiniteDifference

namespace Coefficients

/-- The powers above the order of a stencil at which coefficients over its offsets have a moment. -/
def errorPowers (s : Stencil) (coefficients : List ℚ) : Set ℕ :=
  {k | s.order < k ∧ moment s.offsets coefficients k ≠ 0}

/-- If there is such a power, one of them is among the next powers, as many as there are offsets. -/
theorem exists_errorPower_le (s : Stencil) {coefficients : List ℚ} {k : ℕ}
    (hk : k ∈ errorPowers s coefficients) : ∃ j ∈ errorPowers s coefficients, j ≤ s.order + s.length := by
  by_contra hnone
  have hwindow : ∀ j, s.order + 1 ≤ j → j < s.order + 1 + s.offsets.length →
      moment s.offsets coefficients j = 0 := by
    intro j hlow hhigh
    by_contra hne
    rw [s.length_offsets] at hhigh
    exact hnone ⟨j, ⟨hlow, hne⟩, by omega⟩
  exact hk.2 (moment_eq_zero_of_window s.nodup_offsets hwindow ((Nat.zero_le _).trans_lt hk.1))

/-- **The search.** It finds the least power of the error, if there is one. -/
theorem truncationOrder?_eq_none_or (s : Stencil) (coefficients : List ℚ) :
    (truncationOrder? s coefficients = none ∧ errorPowers s coefficients = ∅) ∨
      ∃ n, truncationOrder? s coefficients = some n ∧
        IsLeast (errorPowers s coefficients) (s.order + n) := by
  rcases (errorPowers s coefficients).eq_empty_or_nonempty with hempty | ⟨k, hk⟩
  · refine .inl ⟨truncationOrder?_eq_none s coefficients fun j hj => ?_, hempty⟩
    by_contra hne
    exact Set.eq_empty_iff_forall_notMem.mp hempty (s.order + j) ⟨by omega, hne⟩
  · classical
    -- the least power of the error is in reach
    have hleast : IsLeast (errorPowers s coefficients) (Nat.find ⟨k, hk⟩) :=
      ⟨Nat.find_spec ⟨k, hk⟩, fun j hj => Nat.find_min' ⟨k, hk⟩ hj⟩
    obtain ⟨j, hj, hbound⟩ := exists_errorPower_le s hk
    generalize Nat.find ⟨k, hk⟩ = power at hleast
    obtain ⟨n, rfl⟩ : ∃ n, power = s.order + n := ⟨power - s.order, by have := hleast.1.1; omega⟩
    have hpos : 0 < n := by
      have := hleast.1.1
      omega
    refine .inr ⟨n, truncationOrder?_eq_some s coefficients hpos ?_ hleast.1.2 fun i hi hlt => ?_, hleast⟩
    · have := hleast.2 hj
      rw [searchBound]
      omega
    · by_contra hne
      have := hleast.2 (show s.order + i ∈ errorPowers s coefficients from ⟨by omega, hne⟩)
      omega

/-- The search finds a distance if and only if it leads to the least power of the error. -/
theorem truncationOrder?_eq_some_iff (s : Stencil) (coefficients : List ℚ) (n : ℕ) :
    truncationOrder? s coefficients = some n ↔ IsLeast (errorPowers s coefficients) (s.order + n) := by
  rcases truncationOrder?_eq_none_or s coefficients with ⟨hnone, hempty⟩ | ⟨m, hsome, hleast⟩
  · rw [hnone, hempty]
    simp [IsLeast]
  · rw [hsome, Option.some_inj]
    constructor
    · rintro rfl
      exact hleast
    · intro hother
      exact Nat.add_left_cancel (hleast.unique hother)

/-- The search finds nothing if and only if all moments above the order vanish. -/
theorem truncationOrder?_eq_none_iff (s : Stencil) (coefficients : List ℚ) :
    truncationOrder? s coefficients = none ↔
      ∀ k, s.order < k → moment s.offsets coefficients k = 0 := by
  constructor
  · intro hnone k hk
    rcases truncationOrder?_eq_none_or s coefficients with ⟨-, hempty⟩ | ⟨n, hsome, -⟩
    · by_contra hne
      exact Set.eq_empty_iff_forall_notMem.mp hempty k ⟨hk, hne⟩
    · rw [hnone] at hsome
      cases hsome
  · intro hzero
    exact truncationOrder?_eq_none s coefficients fun j hj => hzero _ (by omega)

variable {α : Type}

/-- For given coefficients the search needs the list of offsets and nothing else. -/
theorem truncationOrderOf_some [Memory] (s : Stencil) (coefficients : List ℚ) :
    (truncationOrderOf (.descriptor (.axis s)) (some coefficients) : Except (Fault α) (Option ℕ)) =
      if s.length < Memory.room then .ok (truncationOrder? s coefficients)
      else if s.length < RowMajor.sizeBound then .error .noRoom
      else .error (.tooLarge .list) := by
  rw [← s.map_listedOffsets]
  show (s.listedOffsets >>= fun _ => pure (truncationOrder? s coefficients)) = _
  cases s.listedOffsets <;> rfl

/-- **Completeness of the search.** For given coefficients of any number, the truncation order of a stencil
whose offsets can be listed is the distance from its order to the least power above it at which the moment
does not vanish, among all powers; there is none if and only if all moments above the order vanish.  If the
offsets cannot be listed, this is the fault. -/
theorem truncationOrder_isLeast [Memory] (s : Stencil) (coefficients : List ℚ) :
    (truncationOrderOf (.descriptor (.axis s)) (some coefficients) : Except (Fault α) (Option ℕ)) =
        (if s.length < Memory.room then .ok (truncationOrder? s coefficients)
        else if s.length < RowMajor.sizeBound then .error .noRoom
        else .error (.tooLarge .list)) ∧
      (∀ n, truncationOrder? s coefficients = some n ↔
        IsLeast {k | s.order < k ∧ moment s.offsets coefficients k ≠ 0} (s.order + n)) ∧
      (truncationOrder? s coefficients = none ↔
        ∀ k, s.order < k → moment s.offsets coefficients k = 0) :=
  ⟨truncationOrderOf_some s coefficients, truncationOrder?_eq_some_iff s coefficients,
    truncationOrder?_eq_none_iff s coefficients⟩

/-- On a grid that cannot be listed there is no answer, not even for no coefficients at all. -/
theorem not_searched_on_uncountedForward :
    letI : Memory := .ample
    ¬∀ (s : Stencil) (coefficients : List ℚ), ∃ found : Option ℕ,
      (truncationOrderOf (.descriptor (.axis s)) (some coefficients) : Except (Fault Unit) (Option ℕ))
          = .ok found ∧
        (∀ n, found = some n ↔
          IsLeast {k | s.order < k ∧ moment s.offsets coefficients k ≠ 0} (s.order + n)) ∧
        (found = none ↔ ∀ k, s.order < k → moment s.offsets coefficients k = 0) := by
  let : Memory := .ample
  intro hall
  obtain ⟨found, hfound, -⟩ := hall .uncountedForward []
  have hcounted := Stencil.not_counted_uncountedForward
  rw [truncationOrderOf_some, if_neg (Stencil.not_lt_room_of_uncounted hcounted), if_neg hcounted] at hfound
  cases hfound

end Coefficients

end FiniteDifference
