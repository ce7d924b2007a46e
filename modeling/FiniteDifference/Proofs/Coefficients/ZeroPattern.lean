import FiniteDifference.Proofs.Coefficients.NodePolynomial

/-!
# Zero coefficients

A coefficient of a stencil vanishes exactly if the node polynomial of the other offsets has no
coefficient at the order of the derivative.  On one side of the point the other offsets have one sign, so
this does not happen.  Around the point it happens at zero for odd orders alone: without zero the other
offsets pair up to a polynomial in `X ^ 2`, and without another offset `a` they leave the factors `X` and
`X + a` beside the pairs.
-/

namespace FiniteDifference.Coefficients

open Polynomial

/-! ## The other offsets -/

/-- If a list without repetition is another one in front of which an entry is put, the other one holds the
other entries. -/
theorem filter_ne_perm {offsets others : List ℤ} {o : ℤ} (hnodup : offsets.Nodup)
    (hperm : offsets.Perm (o :: others)) : (offsets.filter (· ≠ o)).Perm others := by
  have hmem : o ∉ others := (List.nodup_cons.mp (hperm.nodup_iff.mp hnodup)).1
  have hfilter : (o :: others).filter (· ≠ o) = others := by
    rw [List.filter_cons_of_neg (by simp), List.filter_eq_self]
    intro a ha
    exact decide_eq_true (ne_of_mem_of_not_mem ha hmem)
  rw [← hfilter]
  exact hperm.filter _

/-- **Weights by the other offsets.** A weight is the factorial of the order times the coefficient at that
power of the node polynomial of the other offsets, over the value of this polynomial at the offset. -/
theorem weight_eq_div {offsets others : List ℤ} {o : ℤ} (hnodup : offsets.Nodup)
    (hperm : offsets.Perm (o :: others)) (order : ℕ) :
    weight offsets order o
      = order.factorial * (nodePolynomial others).coeff order / (nodePolynomial others).eval (o : ℚ) := by
  have hothers := filter_ne_perm hnodup hperm
  have hcoeff : ((withRoots (offsets.filter (· ≠ o))).getD order 0 : ℚ)
      = (nodePolynomial others).coeff order := by
    rw [← coeff_ofCoefficients, ofCoefficients_withRoots, nodePolynomial_perm hothers]
  rw [weight, separation_eq_eval, nodePolynomial_perm hothers, factorial_eq, Int.cast_mul, hcoeff,
    Int.cast_natCast]

theorem eval_nodePolynomial_others_ne_zero {offsets others : List ℤ} {o : ℤ} (hnodup : offsets.Nodup)
    (hperm : offsets.Perm (o :: others)) : (nodePolynomial others).eval (o : ℚ) ≠ 0 := by
  rw [Ne, eval_nodePolynomial_eq_zero_iff]
  exact (List.nodup_cons.mp (hperm.nodup_iff.mp hnodup)).1

/-- **Zero weights.** A weight vanishes if and only if the node polynomial of the other offsets has no
coefficient at the order. -/
theorem weight_eq_zero_iff {offsets others : List ℤ} {o : ℤ} (hnodup : offsets.Nodup)
    (hperm : offsets.Perm (o :: others)) (order : ℕ) :
    weight offsets order o = 0 ↔ (nodePolynomial others).coeff order = 0 := by
  have hfactorial : (order.factorial : ℚ) ≠ 0 := Nat.cast_ne_zero.mpr order.factorial_ne_zero
  rw [weight_eq_div hnodup hperm, div_eq_zero_iff,
    or_iff_left (eval_nodePolynomial_others_ne_zero hnodup hperm), mul_eq_zero,
    or_iff_right hfactorial]

/-! ## Lists of ascending integers -/

theorem ascending_perm {m : ℕ} {a : ℤ} (ha : a ∈ ascending m) :
    (ascending m).Perm (a :: (ascending m).erase a) :=
  List.perm_cons_erase ha

theorem length_erase_ascending {m : ℕ} {a : ℤ} (ha : a ∈ ascending m) :
    ((ascending m).erase a).length = m - 1 := by
  rw [List.length_erase_of_mem ha, length_ascending]

theorem pos_of_mem_erase_ascending {m : ℕ} {a o : ℤ} (ho : o ∈ (ascending m).erase a) :
    (0 : ℚ) < o :=
  pos_of_mem_ascending (List.mem_map_of_mem (List.mem_of_mem_erase ho))

/-! ## Grids on one side -/

/-- On one side of the point no weight is zero. -/
theorem weight_ne_zero_of_ne_central (s : Stencil) (h : s.placement ≠ .central) {o : ℤ}
    (ho : o ∈ s.offsets) : weight s.offsets s.order o ≠ 0 := by
  obtain ⟨ε, hε, hperm⟩ := offsets_perm_of_ne_central s h
  have hlt := s.order_lt_length
  have hsign : (-ε : ℚ) * (-ε : ℚ) = 1 := by
    rw [neg_mul_neg]
    exact_mod_cast hε
  rcases List.mem_cons.mp (hperm.mem_iff.mp ho) with rfl | hside
  · -- the other offsets have one sign
    rw [Ne, weight_eq_zero_iff s.nodup_offsets hperm, nodePolynomial_map_mul]
    refine coeff_signedProduct_ne_zero hsign (fun a ha => pos_of_mem_ascending ha) ?_
    rw [List.length_map, length_ascending]
    omega
  · -- the other offsets are zero and integers of one sign
    obtain ⟨a, ha, rfl⟩ := List.mem_map.mp hside
    have hothers : s.offsets.Perm
        (ε * a :: 0 :: ((ascending (s.length - 1)).erase a).map (ε * ·)) := by
      refine hperm.trans (.trans (.cons 0 ?_) (.swap _ _ _))
      exact (ascending_perm ha).map _
    have hpos : 0 < s.order := by
      by_contra hzero
      have hlength := s.length_of_order_eq_zero (by omega)
      have hlow := mem_ascending.mp ha
      omega
    obtain ⟨order, horder⟩ : ∃ order, s.order = order + 1 := ⟨s.order - 1, by omega⟩
    rw [Ne, weight_eq_zero_iff s.nodup_offsets hothers, nodePolynomial_zero_cons, horder, coeff_X_mul,
      nodePolynomial_map_mul]
    refine coeff_signedProduct_ne_zero hsign (fun b hb => ?_) ?_
    · obtain ⟨o, ho, rfl⟩ := List.mem_map.mp hb
      exact pos_of_mem_erase_ascending ho
    · rw [List.length_map, length_erase_ascending ha]
      omega

/-! ## Central grids -/

/-- A polynomial in `X ^ 2` has even coefficients only. -/
theorem coeff_expand_two_eq_zero_iff {as : List ℚ} (h : ∀ a ∈ as, 0 < a) {k : ℕ}
    (hk : k / 2 ≤ as.length) :
    (expand ℚ 2 (signedProduct (-1) as)).coeff k = 0 ↔ k % 2 = 1 := by
  have hne := coeff_signedProduct_ne_zero (by norm_num : (-1 : ℚ) * -1 = 1) h hk
  rw [coeff_expand (by norm_num)]
  split
  · next hdvd =>
    constructor
    · intro hzero
      exact absurd hzero hne
    · intro hodd
      omega
  · next hdvd =>
    constructor
    · intro _
      omega
    · intro _
      rfl

/-- With the factors `X` and `X + a` beside a polynomial in `X ^ 2`, no coefficient from the linear one on
is missing. -/
theorem coeff_X_mul_expand_two_ne_zero {as : List ℚ} (h : ∀ a ∈ as, 0 < a) {a : ℚ} (ha : a ≠ 0)
    {k : ℕ} (hpos : 0 < k) (hk : k ≤ 2 * as.length + 2) :
    (X * ((X + C a) * expand ℚ 2 (signedProduct (-1) as))).coeff k ≠ 0 := by
  obtain ⟨j, rfl⟩ : ∃ j, k = j + 1 := ⟨k - 1, by omega⟩
  rw [coeff_X_mul, add_mul, coeff_add, coeff_C_mul]
  rcases Nat.mod_two_eq_zero_or_one j with heven | hodd
  · -- the factor `X` adds nothing to an even coefficient
    have hcoeff : (expand ℚ 2 (signedProduct (-1) as)).coeff j ≠ 0 := by
      rw [Ne, coeff_expand_two_eq_zero_iff h (by omega)]
      omega
    have hshift : (X * expand ℚ 2 (signedProduct (-1) as)).coeff j = 0 := by
      cases j with
      | zero => exact coeff_X_mul_zero _
      | succ i =>
        rw [coeff_X_mul, coeff_expand_two_eq_zero_iff h (by omega)]
        omega
    rw [hshift, zero_add]
    exact mul_ne_zero ha hcoeff
  · -- and the constant `a` nothing to an odd one
    obtain ⟨i, rfl⟩ : ∃ i, j = i + 1 := ⟨j - 1, by omega⟩
    have hcoeff : (expand ℚ 2 (signedProduct (-1) as)).coeff i ≠ 0 := by
      rw [Ne, coeff_expand_two_eq_zero_iff h (by omega)]
      omega
    have hconstant : (expand ℚ 2 (signedProduct (-1) as)).coeff (i + 1) = 0 := by
      rw [coeff_expand (by norm_num), if_neg (by omega)]
    rw [coeff_X_mul, hconstant, mul_zero, add_zero]
    exact hcoeff

/-- Around the point, an offset other than zero leaves zero, its opposite, and pairs of opposites. -/
theorem offsets_perm_of_mem_central {s : Stencil} (h : s.placement = .central) {o : ℤ}
    (ho : o ∈ s.offsets) (hne : o ≠ 0) :
    ∃ a ∈ ascending s.ahead, s.offsets.Perm (o :: 0 :: -o ::
      (((ascending s.ahead).erase a).map (1 * ·) ++ ((ascending s.ahead).erase a).map (-1 * ·))) := by
  have hperm := offsets_perm_of_central s h
  -- a pair of opposites may stand in front
  have hpair : ∀ a ∈ ascending s.ahead, s.offsets.Perm (0 :: 1 * a :: -1 * a ::
      (((ascending s.ahead).erase a).map (1 * ·)
        ++ ((ascending s.ahead).erase a).map (-1 * ·))) := by
    intro a ha
    refine hperm.trans (.cons 0 ?_)
    refine (((ascending_perm ha).map (1 * ·)).append ((ascending_perm ha).map (-1 * ·))).trans ?_
    exact .cons _ List.perm_middle
  rcases List.mem_cons.mp (hperm.mem_iff.mp ho) with rfl | hside
  · exact absurd rfl hne
  · rcases List.mem_append.mp hside with hahead | hbehind
    · obtain ⟨a, ha, rfl⟩ := List.mem_map.mp hahead
      refine ⟨a, ha, (hpair a ha).trans ?_⟩
      have hopposite : -(1 * a) = -1 * a := by ring
      rw [hopposite]
      exact .swap _ _ _
    · obtain ⟨a, ha, rfl⟩ := List.mem_map.mp hbehind
      refine ⟨a, ha, (hpair a ha).trans ?_⟩
      have hopposite : -(-1 * a) = 1 * a := by ring
      rw [hopposite]
      exact (List.Perm.cons 0 (.swap _ _ _)).trans (.swap _ _ _)

theorem length_of_central {s : Stencil} (h : s.placement = .central) :
    s.length = 2 * s.ahead + 1 := by
  simp only [Stencil.length, Stencil.behind, Stencil.ahead, h]
  omega

/-- Around the point the weight at zero vanishes for odd orders. -/
theorem weight_zero_of_central {s : Stencil} (h : s.placement = .central) :
    weight s.offsets s.order 0 = 0 ↔ s.order % 2 = 1 := by
  have hlt := s.order_lt_length
  rw [length_of_central h] at hlt
  rw [weight_eq_zero_iff s.nodup_offsets (offsets_perm_of_central s h), nodePolynomial_append,
    nodePolynomial_mul_opposite]
  refine coeff_expand_two_eq_zero_iff (fun a ha => pos_of_mem_squares ha) ?_
  rw [squares, List.length_map, length_ascending]
  omega

/-- Around the point the weights at other offsets do not vanish. -/
theorem weight_ne_zero_of_central {s : Stencil} (h : s.placement = .central) {o : ℤ}
    (ho : o ∈ s.offsets) (hne : o ≠ 0) : weight s.offsets s.order o ≠ 0 := by
  have hlt := s.order_lt_length
  rw [length_of_central h] at hlt
  obtain ⟨a, ha, hperm⟩ := offsets_perm_of_mem_central h ho hne
  have hpos : 0 < s.order := by
    by_contra hzero
    rw [s.offsets_of_order_eq_zero (by omega), List.mem_singleton] at ho
    exact hne ho
  have hfactors : nodePolynomial (0 :: -o :: (((ascending s.ahead).erase a).map (1 * ·)
      ++ ((ascending s.ahead).erase a).map (-1 * ·)))
      = X * ((X + C (o : ℚ)) * expand ℚ 2 (signedProduct (-1)
          (((ascending s.ahead).erase a).map fun o : ℤ => (o : ℚ) ^ 2))) := by
    rw [nodePolynomial_zero_cons, nodePolynomial_cons, nodePolynomial_append,
      nodePolynomial_mul_opposite, Int.cast_neg, C_neg, sub_neg_eq_add]
  rw [Ne, weight_eq_zero_iff s.nodup_offsets hperm, hfactors]
  refine coeff_X_mul_expand_two_ne_zero (fun b hb => ?_) (Int.cast_ne_zero.mpr hne) hpos ?_
  · obtain ⟨r, hr, rfl⟩ := List.mem_map.mp hb
    exact pow_pos (pos_of_mem_erase_ascending hr) 2
  · have hahead := (mem_ascending.mp ha)
    rw [List.length_map, length_erase_ascending ha]
    omega

/-! ## The pattern -/

/-- **Zero pattern.** A weight of a stencil vanishes if and only if it is the one at zero, of a central
stencil of odd order. -/
theorem weight_eq_zero_iff_central (s : Stencil) {o : ℤ} (ho : o ∈ s.offsets) :
    weight s.offsets s.order o = 0 ↔ s.placement = .central ∧ s.order % 2 = 1 ∧ o = 0 := by
  by_cases h : s.placement = .central
  · by_cases hzero : o = 0
    · rw [hzero, weight_zero_of_central h]
      simp [h]
    · simp [hzero, weight_ne_zero_of_central h ho hzero]
  · simp [h, weight_ne_zero_of_ne_central s h ho]

end FiniteDifference.Coefficients
