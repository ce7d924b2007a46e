import FiniteDifference.Proofs.Coefficients.Interpolation
import FiniteDifference.Proofs.Stencil.Grid
import Mathlib.Algebra.Polynomial.Expand
import Mathlib.Tactic.LinearCombination

/-!
# Node polynomials of stencils

The node polynomial of a grid on one side of zero is `X` times a product of linear factors whose roots
have one sign, so none of its coefficients vanishes except the constant one.  The node polynomial of a
central grid is `X` times a product of factors `X ^ 2 - a ^ 2`, so exactly its odd coefficients are
different from zero.
-/

namespace FiniteDifference.Coefficients

open Polynomial

/-! ## Products of linear factors -/

theorem nodePolynomial_perm {grid other : List ℤ} (h : grid.Perm other) :
    nodePolynomial grid = nodePolynomial other :=
  (h.map _).prod_eq

theorem nodePolynomial_append (grid other : List ℤ) :
    nodePolynomial (grid ++ other) = nodePolynomial grid * nodePolynomial other := by
  rw [nodePolynomial, List.map_append, List.prod_append, ← nodePolynomial, ← nodePolynomial]

theorem nodePolynomial_zero_cons (grid : List ℤ) :
    nodePolynomial (0 :: grid) = X * nodePolynomial grid := by
  rw [nodePolynomial_cons]
  simp

/-- Node polynomials have the leading coefficient one. -/
theorem monic_nodePolynomial (grid : List ℤ) : (nodePolynomial grid).Monic := by
  induction grid with
  | nil => simp [nodePolynomial]
  | cons r grid ih =>
    rw [nodePolynomial_cons]
    exact (monic_X_sub_C _).mul ih

/-- The degree of a node polynomial is the number of its roots. -/
theorem natDegree_nodePolynomial (grid : List ℤ) :
    (nodePolynomial grid).natDegree = grid.length := by
  induction grid with
  | nil => simp [nodePolynomial]
  | cons r grid ih =>
    rw [nodePolynomial_cons, (monic_X_sub_C _).natDegree_mul (monic_nodePolynomial grid),
      natDegree_X_sub_C, ih, List.length_cons, Nat.add_comm]

/-- The product of the factors `X + ε * a` over a list of numbers `a`. -/
noncomputable def signedProduct (ε : ℚ) (as : List ℚ) : ℚ[X] :=
  (as.map fun a => X + C (ε * a)).prod

theorem signedProduct_cons (ε a : ℚ) (as : List ℚ) :
    signedProduct ε (a :: as) = (X + C (ε * a)) * signedProduct ε as := by
  rw [signedProduct, List.map_cons, List.prod_cons, ← signedProduct]

/-- One more factor adds a multiple of each coefficient to the next one. -/
theorem coeff_succ_signedProduct_cons (ε a : ℚ) (as : List ℚ) (k : ℕ) :
    (signedProduct ε (a :: as)).coeff (k + 1)
      = (signedProduct ε as).coeff k + ε * a * (signedProduct ε as).coeff (k + 1) := by
  rw [signedProduct_cons, add_mul, coeff_add, coeff_X_mul, coeff_C_mul]

/-- One more factor multiplies the constant coefficient. -/
theorem coeff_zero_signedProduct_cons (ε a : ℚ) (as : List ℚ) :
    (signedProduct ε (a :: as)).coeff 0 = ε * a * (signedProduct ε as).coeff 0 := by
  rw [signedProduct_cons, add_mul, coeff_add, coeff_C_mul]
  simp

/-- **Signs.** If `ε` is a sign and all numbers are positive, the coefficients alternate with the powers
of `ε`. -/
theorem signedProduct_sign {ε : ℚ} (hε : ε * ε = 1) (as : List ℚ) (h : ∀ a ∈ as, 0 < a) (k : ℕ) :
    0 ≤ ε ^ (as.length + k) * (signedProduct ε as).coeff k ∧
      (k ≤ as.length → 0 < ε ^ (as.length + k) * (signedProduct ε as).coeff k) := by
  induction as generalizing k with
  | nil =>
    cases k with
    | zero => simp [signedProduct]
    | succ k => simp [signedProduct, coeff_one]
  | cons a as ih =>
    have ha : 0 < a := h a (by simp)
    have ih := ih fun b hb => h b (List.mem_cons_of_mem a hb)
    cases k with
    | zero =>
      have heq : ε ^ ((a :: as).length + 0) * (signedProduct ε (a :: as)).coeff 0
          = a * (ε ^ (as.length + 0) * (signedProduct ε as).coeff 0) := by
        rw [coeff_zero_signedProduct_cons, List.length_cons]
        linear_combination a * ε ^ as.length * (signedProduct ε as).coeff 0 * hε
      have hpos := mul_pos ha ((ih 0).2 (Nat.zero_le _))
      rw [heq]
      exact ⟨hpos.le, fun _ => hpos⟩
    | succ k =>
      -- with the powers of the sign both terms of the recursion are nonnegative
      have heq : ε ^ ((a :: as).length + (k + 1)) * (signedProduct ε (a :: as)).coeff (k + 1)
          = ε ^ (as.length + k) * (signedProduct ε as).coeff k
            + a * (ε ^ (as.length + (k + 1)) * (signedProduct ε as).coeff (k + 1)) := by
        rw [coeff_succ_signedProduct_cons, List.length_cons]
        linear_combination ε ^ (as.length + k) * ((signedProduct ε as).coeff k
          + ε * a * (signedProduct ε as).coeff (k + 1)) * hε
      have hlow := (ih k).1
      have hhigh := mul_nonneg ha.le (ih (k + 1)).1
      rw [heq]
      refine ⟨by linarith, fun hk => ?_⟩
      have hpos := (ih k).2 (by simpa using hk)
      linarith

/-- So no coefficient up to the degree vanishes. -/
theorem coeff_signedProduct_ne_zero {ε : ℚ} (hε : ε * ε = 1) {as : List ℚ}
    (h : ∀ a ∈ as, 0 < a) {k : ℕ} (hk : k ≤ as.length) : (signedProduct ε as).coeff k ≠ 0 := by
  intro hzero
  have hpos := (signedProduct_sign hε as h k).2 hk
  rw [hzero, mul_zero] at hpos
  exact lt_irrefl 0 hpos

/-! ## Grids on one side -/

/-- The positive integers up to a bound. -/
def ascending (m : ℕ) : List ℤ := (List.range m).map fun i : ℕ => (i : ℤ) + 1

/-- The listed integers. -/
theorem mem_ascending {m : ℕ} {o : ℤ} : o ∈ ascending m ↔ 1 ≤ o ∧ o ≤ m := by
  simp only [ascending, List.mem_map, List.mem_range]
  constructor
  · rintro ⟨i, hi, rfl⟩
    omega
  · rintro ⟨hlow, hhigh⟩
    exact ⟨(o - 1).toNat, by omega, by omega⟩

theorem nodup_ascending (m : ℕ) : (ascending m).Nodup := by
  refine List.Nodup.map ?_ List.nodup_range
  intro i j hij
  have hsum : (i : ℤ) + 1 = (j : ℤ) + 1 := hij
  omega

@[simp] theorem length_ascending (m : ℕ) : (ascending m).length = m := by
  simp [ascending]

theorem pos_of_mem_ascending {m : ℕ} {a : ℚ} (h : a ∈ (ascending m).map (fun o : ℤ => (o : ℚ))) :
    0 < a := by
  obtain ⟨o, ho, rfl⟩ := List.mem_map.mp h
  have hlow := (mem_ascending.mp ho).1
  exact_mod_cast hlow

/-- The node polynomial of the multiples by a sign is a signed product. -/
theorem nodePolynomial_map_mul (ε : ℤ) (grid : List ℤ) :
    nodePolynomial (grid.map (ε * ·))
      = signedProduct (-ε) (grid.map fun o : ℤ => (o : ℚ)) := by
  rw [nodePolynomial, signedProduct, List.map_map, List.map_map]
  congr 1
  refine List.map_congr_left fun o _ => ?_
  simp only [Function.comp_apply, Int.cast_mul, neg_mul, C_neg]
  ring

/-- A grid on one side is zero and the multiples of the positive integers by a sign. -/
theorem offsets_perm_of_ne_central (s : Stencil) (h : s.placement ≠ .central) :
    ∃ ε : ℤ, ε * ε = 1 ∧ s.offsets.Perm (0 :: (ascending (s.length - 1)).map (ε * ·)) := by
  -- for either sign the list has no repetition, so it only has to hold the right integers
  have hlist : ∀ ε : ℤ, ε * ε = 1 →
      (∀ o, o ∈ 0 :: (ascending (s.length - 1)).map (ε * ·) ↔ s.left ≤ o ∧ o ≤ s.right) →
      s.offsets.Perm (0 :: (ascending (s.length - 1)).map (ε * ·)) := by
    intro ε hε hmem
    have hinj : Function.Injective (ε * · : ℤ → ℤ) := fun a b hab => by
      linear_combination ε * hab + (b - a) * hε
    refine s.offsets_perm (List.nodup_cons.mpr ⟨?_, (nodup_ascending _).map hinj⟩) hmem
    rw [List.mem_map]
    rintro ⟨a, ha, hzero⟩
    have hlow := (mem_ascending.mp ha).1
    have : a = 0 := by linear_combination ε * hzero - a * hε
    omega
  rcases hp : s.placement
  · refine ⟨1, by norm_num, hlist 1 (by norm_num) fun o => ?_⟩
    simp only [one_mul, List.map_id', List.mem_cons, mem_ascending, Stencil.left, Stencil.right,
      Stencil.length, Stencil.behind, Stencil.ahead, hp]
    omega
  · refine ⟨-1, by norm_num, hlist (-1) (by norm_num) fun o => ?_⟩
    simp only [List.mem_cons, List.mem_map, mem_ascending, Stencil.left, Stencil.right,
      Stencil.length, Stencil.behind, Stencil.ahead, hp]
    constructor
    · rintro (rfl | ⟨a, ha, rfl⟩) <;> omega
    · intro ho
      rcases eq_or_ne o 0 with rfl | hne
      · exact Or.inl rfl
      · exact Or.inr ⟨-o, by omega, by ring⟩
  · exact absurd hp h

/-- On one side, every coefficient of the node polynomial but the constant one is different from zero. -/
theorem coeff_nodePolynomial_of_ne_central (s : Stencil) (h : s.placement ≠ .central) {k : ℕ}
    (hk : k < s.length) : (nodePolynomial s.offsets).coeff (k + 1) ≠ 0 := by
  obtain ⟨ε, hε, hperm⟩ := offsets_perm_of_ne_central s h
  rw [nodePolynomial_perm hperm, nodePolynomial_zero_cons, coeff_X_mul, nodePolynomial_map_mul]
  have hsign : (-ε : ℚ) * (-ε : ℚ) = 1 := by
    rw [neg_mul_neg]
    exact_mod_cast hε
  refine coeff_signedProduct_ne_zero hsign (fun a ha => pos_of_mem_ascending ha) ?_
  rw [List.length_map, length_ascending]
  omega

/-! ## Central grids -/

/-- The squares of the positive integers up to a bound. -/
def squares (m : ℕ) : List ℚ := (ascending m).map fun o : ℤ => (o : ℚ) ^ 2

/-- The squares are positive. -/
theorem pos_of_mem_squares {m : ℕ} {a : ℚ} (h : a ∈ squares m) : 0 < a := by
  obtain ⟨o, ho, rfl⟩ := List.mem_map.mp h
  have hpos : (0 : ℚ) < o := by
    have hlow := (mem_ascending.mp ho).1
    exact_mod_cast hlow
  exact pow_pos hpos 2

/-- Opposite roots pair up to a polynomial in `X ^ 2`. -/
theorem nodePolynomial_mul_opposite (grid : List ℤ) :
    nodePolynomial (grid.map (1 * ·)) * nodePolynomial (grid.map (-1 * ·))
      = expand ℚ 2 (signedProduct (-1) (grid.map fun o : ℤ => (o : ℚ) ^ 2)) := by
  induction grid with
  | nil => simp [nodePolynomial, signedProduct]
  | cons o grid ih =>
    have hpair : (X - C ((1 * o : ℤ) : ℚ)) * (X - C ((-1 * o : ℤ) : ℚ))
        = expand ℚ 2 (X + C (-1 * (o : ℚ) ^ 2)) := by
      rw [map_add, expand_X, expand_C]
      simp only [one_mul, neg_mul, Int.cast_neg, C_neg, C_pow]
      ring
    rw [List.map_cons, List.map_cons, List.map_cons, nodePolynomial_cons, nodePolynomial_cons,
      signedProduct_cons, map_mul, ← ih, ← hpair]
    ring

/-- A central grid is zero and pairs of opposite integers. -/
theorem offsets_perm_of_central (s : Stencil) (h : s.placement = .central) :
    s.offsets.Perm (0 :: ((ascending s.ahead).map (1 * ·) ++ (ascending s.ahead).map (-1 * ·))) := by
  have hends : s.behind = s.ahead := by simp [Stencil.behind, Stencil.ahead, h]
  refine s.offsets_perm ?_ fun o => ?_
  · -- zero and the two halves have no integer in common
    rw [List.nodup_cons, List.nodup_append]
    refine ⟨?_, (nodup_ascending _).map fun a b hab => by simpa using hab,
      (nodup_ascending _).map fun a b hab => by simpa using hab, ?_⟩
    · simp only [List.mem_append, List.mem_map, mem_ascending]
      omega
    · intro a ha b hb
      simp only [List.mem_map, mem_ascending] at ha hb
      omega
  · simp only [List.mem_cons, List.mem_append, List.mem_map, mem_ascending, Stencil.left,
      Stencil.right, hends]
    constructor
    · rintro (rfl | ⟨a, ha, rfl⟩ | ⟨a, ha, rfl⟩) <;> omega
    · intro ho
      rcases lt_trichotomy o 0 with hneg | rfl | hpos
      · exact Or.inr (Or.inr ⟨-o, by omega, by ring⟩)
      · exact Or.inl rfl
      · exact Or.inr (Or.inl ⟨o, by omega, by ring⟩)

theorem nodePolynomial_of_central (s : Stencil) (h : s.placement = .central) :
    nodePolynomial s.offsets = X * expand ℚ 2 (signedProduct (-1) (squares s.ahead)) := by
  rw [nodePolynomial_perm (offsets_perm_of_central s h), nodePolynomial_zero_cons,
    nodePolynomial_append, nodePolynomial_mul_opposite, squares]

/-- Around the point, the even coefficients of the node polynomial vanish. -/
theorem coeff_nodePolynomial_of_central_even (s : Stencil) (h : s.placement = .central) {k : ℕ}
    (hk : k % 2 = 0) : (nodePolynomial s.offsets).coeff k = 0 := by
  rw [nodePolynomial_of_central s h]
  cases k with
  | zero => simp
  | succ k =>
    rw [coeff_X_mul, coeff_expand (by norm_num), if_neg (by omega)]

/-- Around the point, the odd coefficients up to the degree do not vanish. -/
theorem coeff_nodePolynomial_of_central_odd (s : Stencil) (h : s.placement = .central) {k : ℕ}
    (hk : k % 2 = 1) (hlt : k ≤ s.length) : (nodePolynomial s.offsets).coeff k ≠ 0 := by
  have hlen : s.length = 2 * s.ahead + 1 := by
    simp only [Stencil.length, Stencil.behind, Stencil.ahead, h]
    omega
  obtain ⟨i, rfl⟩ : ∃ i, k = i * 2 + 1 := ⟨k / 2, by omega⟩
  rw [nodePolynomial_of_central s h, coeff_X_mul, coeff_expand_mul (by norm_num)]
  refine coeff_signedProduct_ne_zero (by norm_num) (fun a ha => pos_of_mem_squares ha) ?_
  rw [squares, List.length_map, length_ascending]
  omega

end FiniteDifference.Coefficients
