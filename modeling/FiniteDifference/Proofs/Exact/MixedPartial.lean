import Mathlib.Algebra.MvPolynomial.PDeriv

/-!
# Mixed partial derivatives

The mixed partial derivative of a polynomial in several variables, taken along one axis after the other,
and its value, monomial by monomial.
-/

namespace FiniteDifference

open MvPolynomial

variable {n : ℕ}

/-- **Mixed partial derivatives.** The derivatives of the given orders along all axes. -/
noncomputable def mixedPartial (orders : Fin n → ℕ) (f : MvPolynomial (Fin n) ℚ) :
    MvPolynomial (Fin n) ℚ :=
  (List.finRange n).foldr (fun a g => (pderiv a)^[orders a] g) f

/-- The exponents that a list of axes takes away. -/
noncomputable def lowered (orders : Fin n → ℕ) (axes : List (Fin n)) : Fin n →₀ ℕ :=
  (axes.map fun a => Finsupp.single a (orders a)).sum

/-- Nothing is taken away on other axes. -/
theorem lowered_apply_of_notMem (orders : Fin n → ℕ) {axes : List (Fin n)} {a : Fin n}
    (h : a ∉ axes) : lowered orders axes a = 0 := by
  induction axes with
  | nil => rfl
  | cons b axes ih =>
    rw [List.mem_cons, not_or] at h
    rw [lowered, List.map_cons, List.sum_cons, Finsupp.add_apply, ← lowered, ih h.2,
      Finsupp.single_eq_of_ne h.1]

/-- The order is taken away on each axis of a list without repetitions. -/
theorem lowered_apply_of_mem (orders : Fin n → ℕ) {axes : List (Fin n)} (hnodup : axes.Nodup)
    {a : Fin n} (h : a ∈ axes) : lowered orders axes a = orders a := by
  induction axes with
  | nil => simp at h
  | cons b axes ih =>
    obtain ⟨hb, hrest⟩ := List.nodup_cons.mp hnodup
    rw [lowered, List.map_cons, List.sum_cons, Finsupp.add_apply, ← lowered]
    rcases List.mem_cons.mp h with rfl | h
    · rw [lowered_apply_of_notMem orders hb, Finsupp.single_eq_same, add_zero]
    · have hne : a ≠ b := fun heq => hb (heq ▸ h)
      rw [ih hrest h, Finsupp.single_eq_of_ne hne, zero_add]

/-- Repeated derivatives of a monomial along one axis. -/
theorem iterate_pderiv_monomial (a : Fin n) (k : ℕ) (d : Fin n →₀ ℕ) (c : ℚ) :
    (pderiv a)^[k] (monomial d c)
      = monomial (d - Finsupp.single a k) (c * (d a).descFactorial k) := by
  induction k with
  | zero => simp
  | succ k ih =>
    rw [Function.iterate_succ_apply', ih, pderiv_monomial, tsub_tsub, ← Finsupp.single_add,
      Finsupp.tsub_apply, Finsupp.single_eq_same, Nat.descFactorial_succ, Nat.cast_mul]
    congr 1
    ring

/-- **Derivatives of monomials.** Along a list of axes without repetitions each exponent is lowered by the
order and gives a falling factorial, by induction on the axes. -/
theorem foldr_pderiv_monomial (orders : Fin n → ℕ) {axes : List (Fin n)} (hnodup : axes.Nodup)
    (d : Fin n →₀ ℕ) (c : ℚ) :
    axes.foldr (fun a g => (pderiv a)^[orders a] g) (monomial d c)
      = monomial (d - lowered orders axes)
          (c * (axes.map fun a => ((d a).descFactorial (orders a) : ℚ)).prod) := by
  induction axes with
  | nil => simp [lowered]
  | cons a axes ih =>
    obtain ⟨ha, hrest⟩ := List.nodup_cons.mp hnodup
    -- the later axes have left the exponent of the first one as it was
    rw [List.foldr_cons, ih hrest, iterate_pderiv_monomial, tsub_tsub, Finsupp.tsub_apply,
      lowered_apply_of_notMem orders ha, tsub_zero, List.map_cons, List.prod_cons, add_comm, lowered,
      lowered, List.map_cons, List.sum_cons]
    congr 1
    ring

/-- Mixed partial derivatives are additive. -/
theorem mixedPartial_add (orders : Fin n → ℕ) (f g : MvPolynomial (Fin n) ℚ) :
    mixedPartial orders (f + g) = mixedPartial orders f + mixedPartial orders g := by
  rw [mixedPartial, mixedPartial, mixedPartial]
  induction List.finRange n with
  | nil => rfl
  | cons a axes ih =>
    rw [List.foldr_cons, ih, iterate_map_add]
    rfl

/-- **Values of mixed partial derivatives.** Each monomial contributes the product of its falling
factorials and lowered powers. -/
theorem eval_mixedPartial (orders : Fin n → ℕ) (f : MvPolynomial (Fin n) ℚ) (x : Fin n → ℚ) :
    eval x (mixedPartial orders f) = ∑ d ∈ f.support, f.coeff d *
      ∏ a, ((d a).descFactorial (orders a) : ℚ) * x a ^ (d a - orders a) := by
  have hmonomial : ∀ (d : Fin n →₀ ℕ) (c : ℚ), eval x (mixedPartial orders (monomial d c))
      = c * ∏ a, ((d a).descFactorial (orders a) : ℚ) * x a ^ (d a - orders a) := by
    intro d c
    have hlowered : ∀ a, lowered orders (List.finRange n) a = orders a := fun a =>
      lowered_apply_of_mem orders (List.nodup_finRange n) (List.mem_finRange a)
    rw [mixedPartial, foldr_pderiv_monomial orders (List.nodup_finRange n), eval_monomial,
      Finsupp.prod_fintype _ _ (fun a => pow_zero _), ← List.ofFn_eq_map, List.prod_ofFn,
      Finset.prod_mul_distrib, mul_assoc]
    simp only [Finsupp.tsub_apply, hlowered]
  let value : MvPolynomial (Fin n) ℚ →+ ℚ :=
    (eval x).toAddMonoidHom.comp (AddMonoidHom.mk' (mixedPartial orders) (mixedPartial_add orders))
  calc eval x (mixedPartial orders f)
      = value (∑ d ∈ f.support, monomial d (f.coeff d)) := by rw [← f.as_sum]; rfl
    _ = ∑ d ∈ f.support, eval x (mixedPartial orders (monomial d (f.coeff d))) := map_sum value _ _
    _ = _ := Finset.sum_congr rfl fun d _ => hmonomial d _

end FiniteDifference
