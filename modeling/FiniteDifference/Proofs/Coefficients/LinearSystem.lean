import FiniteDifference.Proofs.Coefficients.Uniqueness
import FiniteDifference.Stencil.Exact
import FiniteDifference.Stencil.System
import Mathlib.LinearAlgebra.Matrix.Adjugate
import Mathlib.LinearAlgebra.Vandermonde

/-!
# Solving the linear system of a grid

The matrix of a grid is the transposed Vandermonde matrix of its offsets, which is singular exactly if an
offset is repeated.  The equations of the system say which moments the coefficients have, so every exact
solver finds the weights.
-/

namespace FiniteDifference.Coefficients

open Polynomial

/-! ## Exact solvers -/

/-- The rows of a square matrix. -/
def rowsOf {n : ℕ} (A : Matrix (Fin n) (Fin n) ℚ) : List (List ℚ) :=
  List.ofFn fun i => List.ofFn (A i)

/-- **Exact solvers.** They give up on the singular matrices alone, and what they find is a solution. -/
structure Solver.Exact (solver : Solver) : Prop where
  eq_none_iff {n : ℕ} (hn : 0 < n) (A : Matrix (Fin n) (Fin n) ℚ) (b : Fin n → ℚ) :
    solver (rowsOf A) (List.ofFn b) = none ↔ A.det = 0
  mulVec_eq {n : ℕ} (hn : 0 < n) (A : Matrix (Fin n) (Fin n) ℚ) (b : Fin n → ℚ) {x : List ℚ} :
    solver (rowsOf A) (List.ofFn b) = some x → ∃ v, x = List.ofFn v ∧ A.mulVec v = b

/-! ## The matrix of a grid -/

/-- The offsets as the nodes of a Vandermonde matrix. -/
def nodes (offsets : List ℤ) (i : Fin offsets.length) : ℚ := offsets.get i

/-- The rows below a row of multiples hold the higher powers of the offsets with the same multiples. -/
theorem powerRows_map (offsets : List ℤ) (w : ℤ → ℚ) (count : ℕ) :
    powerRows offsets count (offsets.map w)
      = (List.range count).map fun k => offsets.map fun o => w o * (o : ℚ) ^ k := by
  induction count generalizing w with
  | zero => rfl
  | succ count ih =>
    have hnext : List.zipWith (fun value (o : ℤ) => value * (o : ℚ)) (offsets.map w) offsets
        = offsets.map fun o => w o * (o : ℚ) := by
      rw [List.zipWith_map_left, List.zipWith_self]
    rw [powerRows, hnext, ih, List.range_succ_eq_map, List.map_cons, List.map_map]
    simp [pow_succ', mul_assoc]

/-- **The matrix of a grid.** It is the transposed Vandermonde matrix of the offsets. -/
theorem systemRows_eq (offsets : List ℤ) :
    systemRows offsets = rowsOf (Matrix.vandermonde (nodes offsets)).transpose := by
  rw [systemRows, ← List.map_const', powerRows_map]
  refine List.ext_getElem (by simp [rowsOf]) fun k hk hk' => ?_
  refine List.ext_getElem (by simp [rowsOf]) fun i hi hi' => ?_
  simp [rowsOf, nodes]

/-- The right-hand side selects the order. -/
theorem selection_eq {size order : ℕ} (h : order < size) :
    selection size order = List.ofFn (Pi.single (⟨order, h⟩ : Fin size) 1) := by
  refine List.ext_getElem (by simp [selection]) fun i hi hi' => ?_
  simp [selection, List.getElem_set, Pi.single_apply, Fin.ext_iff, eq_comm]

/-- **Singular grids.** The matrix of a grid is singular exactly if an offset is repeated. -/
theorem det_vandermonde_nodes_eq_zero_iff (offsets : List ℤ) :
    (Matrix.vandermonde (nodes offsets)).transpose.det = 0 ↔ ¬offsets.Nodup := by
  rw [Matrix.det_transpose, ← not_iff_not, not_not, ← Ne, Matrix.det_vandermonde_ne_zero_iff,
    List.nodup_iff_injective_get]
  exact Int.cast_injective.of_comp_iff _

/-- The equations of the system are about the moments of its solution. -/
theorem mulVec_vandermonde_nodes (offsets : List ℤ) (v : Fin offsets.length → ℚ)
    (k : Fin offsets.length) :
    (Matrix.vandermonde (nodes offsets)).transpose.mulVec v k
      = moment offsets (List.ofFn v) k := by
  have hterms : List.zipWith (fun (o : ℤ) c => c * (o : ℚ) ^ (k : ℕ)) offsets (List.ofFn v)
      = List.ofFn fun i => v i * nodes offsets i ^ (k : ℕ) := by
    refine List.ext_getElem (by simp) fun i hi hi' => ?_
    simp [nodes]
  rw [moment_eq_sum_zipWith, hterms, List.sum_ofFn, Matrix.mulVec, dotProduct]
  refine Finset.sum_congr rfl fun i _ => ?_
  rw [Matrix.transpose_apply, Matrix.vandermonde_apply, mul_comm]

/-! ## Solutions -/

/-- **Solutions.** What solves the system, times the factorial of the order, are the weights. -/
theorem map_mul_factorial_of_mulVec_eq {offsets : List ℤ} (hnodup : offsets.Nodup) {order : ℕ}
    (horder : order < offsets.length) {v : Fin offsets.length → ℚ}
    (hv : (Matrix.vandermonde (nodes offsets)).transpose.mulVec v = Pi.single ⟨order, horder⟩ 1) :
    (List.ofFn v).map (· * (factorial order : ℚ)) = offsets.map (weight offsets order) := by
  simp only [mul_comm _ (factorial order : ℚ)]
  refine eq_of_moment_eq_of_length hnodup (by simp) (by simp) fun k hk => ?_
  have hmoment : moment offsets (List.ofFn v) k = if k = order then 1 else 0 := by
    rw [← mulVec_vandermonde_nodes offsets v ⟨k, hk⟩, hv, Pi.single_apply]
    exact if_congr Fin.ext_iff rfl rfl
  rw [moment_map_mul, hmoment, moment_map_weight_of_lt hnodup order hk, factorial_eq, mul_ite, mul_one,
    mul_zero]

variable {α : Type}

/-- If the order is below the number of offsets, only a repeated offset is a fault. -/
theorem ofGrid_of_lt {offsets : List ℤ} {order : ℕ} (horder : order < offsets.length) (label : String) :
    (ofGrid offsets order label : Except (Fault α) (List ℚ))
      = if offsets.Nodup then .ok (offsets.map (weight offsets order))
        else .error (.singular label) := by
  rw [ofGrid, if_pos horder, solve?]
  by_cases hnodup : offsets.Nodup
  · rw [if_pos hnodup, if_pos hnodup]
  · rw [if_neg hnodup, if_neg hnodup]

/-- **Agreement.** With an exact solver the system has the coefficients of the grid. -/
theorem ofGridBy_eq_ofGrid {solver : Solver} (hsolver : solver.Exact) (offsets : List ℤ) (order : ℕ)
    (label : String) :
    (ofGridBy solver offsets order label : Except (Fault α) (List ℚ)) = ofGrid offsets order label := by
  by_cases horder : order < offsets.length
  · have hpos : 0 < offsets.length := by omega
    rw [ofGridBy, if_pos horder, systemRows_eq, selection_eq horder, ofGrid_of_lt horder]
    have hsingular := hsolver.eq_none_iff hpos (Matrix.vandermonde (nodes offsets)).transpose
      (Pi.single ⟨order, horder⟩ 1)
    rw [det_vandermonde_nodes_eq_zero_iff] at hsingular
    cases hsolved : solver (rowsOf (Matrix.vandermonde (nodes offsets)).transpose)
        (List.ofFn (Pi.single ⟨order, horder⟩ 1)) with
    | none => rw [if_neg (hsingular.mp hsolved)]
    | some x =>
      have hnodup : offsets.Nodup := by
        by_contra hrepeated
        rw [hsingular.mpr hrepeated] at hsolved
        cases hsolved
      obtain ⟨v, rfl, hv⟩ := hsolver.mulVec_eq hpos _ _ hsolved
      rw [if_pos hnodup]
      exact congrArg Except.ok (map_mul_factorial_of_mulVec_eq hnodup horder hv)
  · rw [ofGridBy, ofGrid, if_neg horder, if_neg horder]

/-- **Coefficients over any grid.** With an exact solver and an order below the number of offsets, the
system of a grid is found singular exactly if an offset is repeated.  Otherwise its coefficients are those
of the grid: each is the factorial of the order times the coefficient at that power of the Lagrange basis
polynomial of its offset, and together they are the only numbers, one for each offset, whose moments below
the number of offsets are the factorial at the order and zero at all other powers. -/
theorem ofGridBy_eq_lagrange {solver : Solver} (hsolver : solver.Exact) {offsets : List ℤ}
    {order : ℕ} (horder : order < offsets.length) (label : String) :
    (ofGridBy solver offsets order label : Except (Fault α) (List ℚ)) = ofGrid offsets order label ∧
      ((ofGrid offsets order label : Except (Fault α) (List ℚ)) = .error (.singular label)
        ↔ ¬offsets.Nodup) ∧
      (offsets.Nodup → ∃ coefficients,
        (ofGrid offsets order label : Except (Fault α) (List ℚ)) = .ok coefficients ∧
        coefficients = (offsets.map fun o =>
          (order.factorial : ℚ) * (basisPolynomial offsets o).coeff order) ∧
        ∀ v : List ℚ, v.length = offsets.length ∧
            (∀ k < offsets.length,
              moment offsets v k = if k = order then (order.factorial : ℚ) else 0)
          ↔ v = coefficients) := by
  refine ⟨ofGridBy_eq_ofGrid hsolver offsets order label, ?_, fun hnodup => ?_⟩
  · rw [ofGrid_of_lt horder]
    by_cases hnodup : offsets.Nodup
    · simp [hnodup]
    · simp [hnodup]
  · refine ⟨offsets.map (weight offsets order), ?_, ?_, fun v => ⟨?_, ?_⟩⟩
    · rw [ofGrid_of_lt horder, if_pos hnodup]
    · exact List.map_congr_left fun o ho => weight_eq_coeff_basis hnodup order ho
    · rintro ⟨hlength, hmoments⟩
      refine eq_of_moment_eq_of_length hnodup hlength (by simp) fun k hk => ?_
      rw [hmoments k hk, moment_map_weight_of_lt hnodup order hk]
    · rintro rfl
      exact ⟨by simp, fun k hk => moment_map_weight_of_lt hnodup order hk⟩

/-! ## A solver -/

/-- The square matrix with the given rows. -/
def squareOf (n : ℕ) (rows : List (List ℚ)) : Matrix (Fin n) (Fin n) ℚ :=
  Matrix.of fun i j => (rows.getD i []).getD j 0

theorem squareOf_rowsOf {n : ℕ} (A : Matrix (Fin n) (Fin n) ℚ) : squareOf n (rowsOf A) = A := by
  ext i j
  simp [squareOf, rowsOf]

/-- The solution of a square system of a given size by Cramer's rule. -/
def cramerOf (n : ℕ) (rows : List (List ℚ)) (b : List ℚ) : Option (List ℚ) :=
  let A := squareOf n rows
  if A.det = 0 then none
  else some (List.ofFn fun i : Fin n => A.det⁻¹ * A.cramer (fun k : Fin n => b.getD k 0) i)

/-- **Cramer's rule.** Each unknown is a quotient of determinants. -/
def cramerSolver : Solver := fun rows b => cramerOf rows.length rows b

/-- Cramer's rule is exact. -/
theorem exact_cramerSolver : Solver.Exact cramerSolver := by
  have hcramer : ∀ {n : ℕ} (A : Matrix (Fin n) (Fin n) ℚ) (b : Fin n → ℚ),
      cramerSolver (rowsOf A) (List.ofFn b)
        = if A.det = 0 then none else some (List.ofFn (A.det⁻¹ • A.cramer b)) := by
    intro n A b
    have hlength : (rowsOf A).length = n := List.length_ofFn
    have hright : (fun k : Fin n => (List.ofFn b).getD k 0) = b := by
      funext k
      simp
    rw [cramerSolver, hlength, cramerOf, squareOf_rowsOf, hright]
    rfl
  constructor
  · intro n _ A b
    rw [hcramer]
    simp
  · intro n _ A b x hx
    rw [hcramer] at hx
    by_cases hdet : A.det = 0
    · rw [if_pos hdet] at hx
      cases hx
    · rw [if_neg hdet] at hx
      refine ⟨A.det⁻¹ • A.cramer b, (Option.some.inj hx).symm, ?_⟩
      rw [Matrix.mulVec_smul, Matrix.mulVec_cramer, smul_smul, inv_mul_cancel₀ hdet, one_smul]

/-- The first derivative at zero from the unsorted offsets two, minus one and zero, and the refusal of a
grid that repeats an offset. -/
theorem ofGridBy_cramerSolver_unsorted :
    Solver.Exact cramerSolver ∧ 1 < [2, -1, 0].length ∧
      (ofGridBy cramerSolver [2, -1, 0] 1 "" : Except (Fault Unit) (List ℚ))
        = .ok [1 / 6, -2 / 3, 1 / 2] ∧
      (ofGridBy cramerSolver [3, 0, 3] 1 "" : Except (Fault Unit) (List ℚ))
        = .error (.singular "") := by
  have hunsorted := (ofGridBy_eq_lagrange (α := Unit) exact_cramerSolver
    (by decide : 1 < ([2, -1, 0] : List ℤ).length) "").1
  have hrepeated := ofGridBy_eq_lagrange (α := Unit) exact_cramerSolver
    (by decide : 1 < ([3, 0, 3] : List ℤ).length) ""
  refine ⟨exact_cramerSolver, by decide, hunsorted.trans ?_,
    hrepeated.1.trans (hrepeated.2.1.mpr (by decide))⟩
  have hcoefficients : solve? [2, -1, 0] 1 = some [1 / 6, -2 / 3, 1 / 2] := by decide +kernel
  rw [ofGrid, if_pos (by decide), hcoefficients]

end FiniteDifference.Coefficients
