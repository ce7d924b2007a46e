import FiniteDifference.Bandwidth.PowerOfTwo
import FiniteDifference.Proofs.Argument.Vectors
import FiniteDifference.Proofs.Cache.Returns
import FiniteDifference.Proofs.Number.Words
import FiniteDifference.Proofs.Outcomes

/-!
# Rounding bandwidths up

What rounding up accepts and returns: positive numbers become powers of two, and a vector of numbers is
rounded up entry by entry.
-/

namespace FiniteDifference

variable {α : Type}

/-! ## Arrays of numbers -/

/-- Real numbers have no other common kind. -/
theorem Common.foldl_join_reals (common : Common) (hcommon : common = .truths ∨ common = .reals)
    (xs : List α) :
    ((xs.map Argument.real).map Common.ofArgument).foldl join common
      = if xs = [] then common else .reals := by
  induction xs generalizing common with
  | nil => rfl
  | cons x xs ih =>
    have hjoin : common.join .reals = .reals := by
      rcases hcommon with rfl | rfl <;> rfl
    rw [List.map_cons, List.map_cons, List.foldl_cons, Common.ofArgument, hjoin, ih _ (.inr rfl),
      if_neg (List.cons_ne_nil x xs)]
    exact ite_self _

namespace PowerOfTwo

/-- An entry of an array of numbers stays as it is. -/
theorem entryOf_ofList_reals (xs : List α) (x : α) :
    entryOf (Common.ofList (xs.map Argument.real)) (.real x) = .ok (.real x) := by
  rw [Common.ofList, Common.foldl_join_reals .truths (.inl rfl)]
  split
  · rfl
  · rfl

variable [Scalar α]

/-- **Rounding a vector of numbers up** rounds its entries up. -/
theorem roundUpAll_ofReals (xs : List α) :
    roundUpAll (Argument.ofReals xs) = xs.mapM fun x => roundUp (.real x) := by
  rw [roundUpAll, Argument.extent_ofReals, Argument.leaves_ofReals]
  show (xs.map Argument.real).mapM _ = _
  rw [List.mapM_map]
  congr 1
  funext x
  rw [Function.comp_apply, entryOf_ofList_reals]
  rfl

/-- **Rounded bandwidths** are powers of two of a normal double. -/
theorem roundUp_eq_ok {a : Argument Float} {y : Float} (h : roundUp a = .ok y) :
    Scalar.isPositive y = true ∧
      ∃ k : ℤ, -1022 ≤ k ∧ k ≤ 1023 ∧ Binary64.toRat? y = some (2 ^ k) := by
  obtain ⟨checked, -, h⟩ := bind_eq_ok.mp h
  cases hup : Scalar.ceilPowerOfTwo? checked.val with
  | none =>
    rw [hup] at h
    cases h
  | some rounded =>
    rw [hup] at h
    cases h
    exact Binary64.ceilPowerOfTwo?_eq_some checked.isPositive hup

/-- **Rounded vectors** have as many entries, all of them positive. -/
theorem roundUpAll_ofReals_eq_ok {xs ys : List Float}
    (h : roundUpAll (Argument.ofReals xs) = .ok ys) :
    ys.length = xs.length ∧ ∀ y ∈ ys, Scalar.isPositive y = true := by
  rw [roundUpAll_ofReals] at h
  have hrounded := mapM_eq_ok.mp h
  have hpositive := hrounded.flip.imp fun y x hxy => And.intro (roundUp_eq_ok hxy).1 hxy
  exact ⟨hrounded.length_eq.symm, ((List.forall₂_and_left _ _).mp hpositive).1⟩

end PowerOfTwo

end FiniteDifference
