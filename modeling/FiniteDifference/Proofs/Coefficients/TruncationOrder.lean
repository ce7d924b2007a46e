import FiniteDifference.Proofs.Coefficients.Moments
import FiniteDifference.Proofs.Coefficients.NodePolynomial

/-!
# Truncation orders

The first moment above the derivative order that is different from zero is at the sum of the two orders
of a stencil.  A moment at or just above the number of points is a coefficient of the node polynomial,
because the node polynomial vanishes at all offsets.
-/

namespace FiniteDifference.Coefficients

open Polynomial

/-! ## Moments from the number of points on -/

/-- The difference of a power and the node polynomial of the same degree has a lower degree. -/
theorem degree_X_pow_sub_nodePolynomial (grid : List ℤ) :
    (X ^ grid.length - nodePolynomial grid : ℚ[X]).degree < grid.length := by
  have hnode : (nodePolynomial grid).degree = grid.length := by
    rw [degree_eq_natDegree (monic_nodePolynomial grid).ne_zero, natDegree_nodePolynomial]
  have hlead : (X ^ grid.length : ℚ[X]).leadingCoeff = (nodePolynomial grid).leadingCoeff := by
    rw [(monic_X_pow _).leadingCoeff, (monic_nodePolynomial grid).leadingCoeff]
  have hlt := degree_sub_lt_left (by rw [degree_X_pow, hnode]) (monic_X_pow grid.length).ne_zero hlead
  rwa [degree_X_pow] at hlt

/-- The moment at the number of points. -/
theorem moment_coefficients_length (s : Stencil) :
    moment s.offsets s.coefficients s.length
      = -(s.order.factorial * (nodePolynomial s.offsets).coeff s.order) := by
  have hsplit : (X ^ s.length : ℚ[X])
      = (X ^ s.offsets.length - nodePolynomial s.offsets) + nodePolynomial s.offsets * 1 := by
    rw [s.length_offsets]
    ring
  have hne : s.order ≠ s.length := s.order_lt_length.ne
  rw [moment_coefficients, hsplit, weightedSum_add, weightedSum_nodePolynomial_mul, add_zero,
    weightedSum_of_degree_lt s.nodup_offsets s.order (degree_X_pow_sub_nodePolynomial _),
    coeff_sub, coeff_X_pow, s.length_offsets, if_neg hne]
  ring

/-- The moment one above the number of points, for a node polynomial without the coefficient below the
leading one. -/
theorem moment_coefficients_length_succ (s : Stencil) {order : ℕ} (horder : s.order = order + 1)
    (h : (nodePolynomial s.offsets).coeff (s.length - 1) = 0) :
    moment s.offsets s.coefficients (s.length + 1)
      = -(s.order.factorial * (nodePolynomial s.offsets).coeff order) := by
  have hsplit : (X ^ (s.length + 1) : ℚ[X])
      = X * (X ^ s.offsets.length - nodePolynomial s.offsets) + nodePolynomial s.offsets * X := by
    rw [s.length_offsets]
    ring
  have hlt := s.order_lt_length
  -- the shifted difference has no coefficient at the number of points, by the missing coefficient
  have hdegree : (X * (X ^ s.offsets.length - nodePolynomial s.offsets) : ℚ[X]).degree
      < s.offsets.length := by
    refine (degree_lt_iff_coeff_zero _ _).mpr fun k hk => ?_
    rw [s.length_offsets] at hk
    obtain ⟨j, rfl⟩ : ∃ j, k = j + 1 := ⟨k - 1, by omega⟩
    rw [coeff_X_mul]
    rcases Nat.lt_or_ge j s.length with hj | hj
    · have hlast : j = s.length - 1 := by omega
      rw [hlast, coeff_sub, h, coeff_X_pow, s.length_offsets, if_neg (by omega), sub_zero]
    · exact coeff_eq_zero_of_degree_lt
        ((degree_X_pow_sub_nodePolynomial _).trans_le (by rw [s.length_offsets]; exact_mod_cast hj))
  rw [moment_coefficients, hsplit, weightedSum_add, weightedSum_nodePolynomial_mul, add_zero,
    weightedSum_of_degree_lt s.nodup_offsets s.order hdegree, horder, coeff_X_mul, coeff_sub,
    coeff_X_pow, s.length_offsets, if_neg (by omega)]
  ring

/-! ## The moments of the error -/

/-- **Vanishing moments.** All moments below the sum of the orders vanish, except the one at the order. -/
theorem moment_coefficients_eq_zero (s : Stencil) {k : ℕ} (hk : k < s.order + s.accuracy)
    (hne : k ≠ s.order) : moment s.offsets s.coefficients k = 0 := by
  rcases Nat.lt_or_ge k s.length with hlt | hge
  · rw [moment_coefficients_of_lt s hlt, if_neg hne]
  · have hpos : 0 < s.order := by
      by_contra hzero
      have hlen := s.length_of_order_eq_zero (by omega)
      have hacc := s.accuracy_eq_zero (by omega)
      omega
    rcases s.length_eq_or hpos with hlen | ⟨hp, heven, hlen⟩
    · omega
    · -- the power is the number of points, and the node polynomial of a central grid is odd
      have hk : k = s.length := by omega
      rw [hk, moment_coefficients_length, coeff_nodePolynomial_of_central_even s hp heven]
      ring

/-- **The leading moment.** The moment at the sum of the orders does not vanish. -/
theorem moment_coefficients_ne_zero (s : Stencil) (hpos : 0 < s.order) :
    moment s.offsets s.coefficients (s.order + s.accuracy) ≠ 0 := by
  have hfactorial : (s.order.factorial : ℚ) ≠ 0 := by
    exact_mod_cast s.order.factorial_ne_zero
  have hlt := s.order_lt_length
  obtain ⟨order, horder⟩ : ∃ order, s.order = order + 1 := ⟨s.order - 1, by omega⟩
  by_cases hp : s.placement = .central
  · -- around the point the moment is an odd coefficient, whatever the parity of the order
    rcases Nat.mod_two_eq_zero_or_one s.order with heven | hodd
    · have hlen := s.length_of_central_even hpos hp heven
      have hacc := s.accuracy_even hp
      have hlast := coeff_nodePolynomial_of_central_even s hp (k := s.length - 1) (by omega)
      rw [← hlen, moment_coefficients_length_succ s horder hlast]
      exact neg_ne_zero.mpr (mul_ne_zero hfactorial
        (coeff_nodePolynomial_of_central_odd s hp (by omega) (by omega)))
    · rw [← s.length_of_odd hodd, moment_coefficients_length]
      exact neg_ne_zero.mpr (mul_ne_zero hfactorial
        (coeff_nodePolynomial_of_central_odd s hp hodd (by omega)))
  · rw [← s.length_of_ne_central hpos hp, moment_coefficients_length, horder]
    refine neg_ne_zero.mpr (mul_ne_zero (by rw [← horder]; exact hfactorial) ?_)
    exact coeff_nodePolynomial_of_ne_central s hp (by omega)

/-- A stencil without derivative samples the point alone, so all its moments but the first vanish. -/
theorem moment_coefficients_of_order_eq_zero (s : Stencil) (h : s.order = 0) {k : ℕ} (hk : 0 < k) :
    moment s.offsets s.coefficients k = 0 := by
  rw [Stencil.coefficients, s.offsets_of_order_eq_zero h, List.map_singleton]
  show _ * ((0 : ℤ) : ℚ) ^ k + 0 = 0
  simp [hk.ne']

/-! ## The search for the leading moment -/

/-- The search finds the distance of the first moment above the order that does not vanish. -/
theorem truncationOrder?_eq_some (s : Stencil) (coefficients : List ℚ) {n : ℕ} (hpos : 0 < n)
    (hbound : s.order + n ≤ searchBound s)
    (hne : moment s.offsets coefficients (s.order + n) ≠ 0)
    (hzero : ∀ j, 0 < j → j < n → moment s.offsets coefficients (s.order + j) = 0) :
    truncationOrder? s coefficients = some n := by
  obtain ⟨m, rfl⟩ : ∃ m, n = m + 1 := ⟨n - 1, by omega⟩
  have hfind : (List.range (searchBound s - s.order)).find?
      (fun j => decide (moment s.offsets coefficients (s.order + (j + 1)) ≠ 0)) = some m := by
    refine List.find?_range_eq_some.mpr ⟨by simpa using hne, ?_, fun j hj => ?_⟩
    · rw [List.mem_range]
      omega
    · simpa using hzero (j + 1) (by omega) (by omega)
  rw [truncationOrder?, List.find?_map]
  exact congrArg (Option.map (· + 1)) hfind

/-- The search fails if all moments above the order vanish. -/
theorem truncationOrder?_eq_none (s : Stencil) (coefficients : List ℚ)
    (hzero : ∀ j, 0 < j → moment s.offsets coefficients (s.order + j) = 0) :
    truncationOrder? s coefficients = none := by
  unfold truncationOrder?
  rw [List.find?_eq_none]
  intro n hn
  obtain ⟨j, -, rfl⟩ := List.mem_map.mp hn
  simpa using hzero (j + 1) (by omega)

/-- The truncation order of a stencil with its own coefficients. -/
theorem truncationOrder?_coefficients (s : Stencil) :
    truncationOrder? s s.coefficients = if s.order = 0 then none else some s.accuracy := by
  by_cases h : s.order = 0
  · rw [if_pos h]
    exact truncationOrder?_eq_none s _ fun j hj =>
      moment_coefficients_of_order_eq_zero s h (by omega)
  · have hpos : 0 < s.order := by omega
    rw [if_neg h]
    refine truncationOrder?_eq_some s _ (s.accuracy_pos hpos) ?_
      (moment_coefficients_ne_zero s hpos)
      fun j hj hlt => moment_coefficients_eq_zero s (by omega) (by omega)
    rw [searchBound]
    rcases s.length_eq_or hpos with hlen | ⟨-, -, hlen⟩
    · omega
    · omega

variable {α : Type}

/-- For its own coefficients the search needs the list of offsets and nothing else. -/
theorem truncationOrderOf_none [Memory] (s : Stencil) :
    (truncationOrderOf (.descriptor (.axis s)) none : Except (Fault α) (Option ℕ)) =
      if s.length < Memory.room then .ok (truncationOrder? s s.coefficients)
      else if s.length < RowMajor.sizeBound then .error .noRoom
      else .error (.tooLarge .list) := by
  show (ofStencil s >>= fun c => pure (truncationOrder? s c)) = _
  rw [ofStencil_eq_map, ← s.map_listedOffsets]
  cases s.listedOffsets <;> rfl

/-- **Truncation orders of stencils.** A stencil that takes a derivative has its accuracy as truncation
order: the moments between its order and the sum of both orders vanish and the one at the sum does not.
For a stencil that takes none there is no truncation order, since no moment but the first is different
from zero.  Only a grid for which there is no room, or whose points cannot be counted, has no answer. -/
theorem truncationOrder_eq_accuracy [Memory] (s : Stencil) :
    (truncationOrderOf (.descriptor (.axis s)) none : Except (Fault α) (Option ℕ)) =
        (if s.length < Memory.room then .ok (if s.order = 0 then none else some s.accuracy)
        else if s.length < RowMajor.sizeBound then .error .noRoom
        else .error (.tooLarge .list)) ∧
      truncationOrder? s s.coefficients = (if s.order = 0 then none else some s.accuracy) ∧
      (s.order = 0 → ∀ k, 0 < k → moment s.offsets s.coefficients k = 0) ∧
      (0 < s.order →
        (∀ k, s.order < k → k < s.order + s.accuracy → moment s.offsets s.coefficients k = 0) ∧
          moment s.offsets s.coefficients (s.order + s.accuracy) ≠ 0) := by
  refine ⟨?_, truncationOrder?_coefficients s,
    fun h k hk => moment_coefficients_of_order_eq_zero s h hk,
    fun hpos => ⟨fun k hlow hhigh => moment_coefficients_eq_zero s hhigh hlow.ne',
      moment_coefficients_ne_zero s hpos⟩⟩
  rw [truncationOrderOf_none, truncationOrder?_coefficients]

/-- The central second derivative on three points has one point less than the sum of its orders; its
truncation order is two nevertheless, and its moment at the fourth power the first one of the error.  The
value of a function has no truncation order. -/
theorem truncationOrder_threePointCentralSecond :
    letI : Memory := .ample
    (truncationOrderOf (.descriptor (.axis .threePointCentralSecond)) none : Except (Fault Unit) (Option ℕ))
        = .ok (some 2) ∧
      (truncationOrderOf (.descriptor (.axis .value)) none : Except (Fault Unit) (Option ℕ)) = .ok none ∧
      0 < Stencil.threePointCentralSecond.order ∧
      moment Stencil.threePointCentralSecond.offsets Stencil.threePointCentralSecond.coefficients 3 = 0 ∧
      moment Stencil.threePointCentralSecond.offsets Stencil.threePointCentralSecond.coefficients 4 ≠ 0 := by
  let : Memory := .ample
  have hroom : Stencil.threePointCentralSecond.length < Memory.ample.room := by decide
  have hroom' : Stencil.value.length < Memory.ample.room := by decide
  obtain ⟨horder, -, -, hmoments⟩ :=
    truncationOrder_eq_accuracy (α := Unit) Stencil.threePointCentralSecond
  have hvalue := (truncationOrder_eq_accuracy (α := Unit) Stencil.value).1
  rw [if_pos hroom] at horder
  rw [if_pos hroom'] at hvalue
  obtain ⟨hzero, hne⟩ := hmoments (by decide)
  exact ⟨horder, hvalue, by decide, hzero 3 (by decide) (by decide), hne⟩

/-- On a grid whose points cannot be counted the truncation order is not found, even in the largest memory. -/
theorem not_found_on_uncountedForward :
    letI : Memory := .ample
    ¬∀ s : Stencil, (truncationOrderOf (.descriptor (.axis s)) none : Except (Fault Unit) (Option ℕ))
      = .ok (if s.order = 0 then none else some s.accuracy) := by
  let : Memory := .ample
  intro hall
  have hfound := hall .uncountedForward
  have hcounted := Stencil.not_counted_uncountedForward
  rw [truncationOrderOf_none, if_neg (Stencil.not_lt_room_of_uncounted hcounted), if_neg hcounted] at hfound
  cases hfound

end FiniteDifference.Coefficients
