import FiniteDifference.Proofs.Argument.Extents
import FiniteDifference.Validation

/-!
# Vectors of numbers

A list of numbers is read as a vector with these entries, and passes every check on points; it passes the
check on bandwidths if all of its entries are positive and it has one.
-/

namespace FiniteDifference

variable {α : Type}

namespace Argument

/-! ## Reading a vector -/

/-- A list of numbers has one axis. -/
theorem extent_ofReals (xs : List α) : (ofReals xs).extent = ⟨[xs.length], false⟩ := by
  by_cases hne : xs = []
  · rw [hne]
    rfl
  · rw [ofReals, extent_list (e := ⟨[], false⟩), List.length_map]
    intro axes
    refine commonExtentWithin_of_forall_eq Extent.isFlat_nil (mt List.map_eq_nil_iff.mp hne) ?_
    exact List.forall_mem_map.mpr fun x _ => rfl

theorem leaves_ofReals (xs : List α) : (ofReals xs).leaves = xs.map .real := by
  rw [ofReals, leaves]
  exact leavesOfAll_eq_self (List.forall_mem_map.mpr fun x _ => rfl)

variable [Scalar α]

/-- Numbers are entries as they are. -/
theorem mapM_toEntry_reals (xs : List α) :
    ((xs.map .real).mapM toEntry : Except (Fault α) (List α)) = .ok xs := by
  induction xs with
  | nil => rfl
  | cons x xs ih =>
    rw [List.map_cons, List.mapM_cons, ih]
    rfl

/-- **Reading a vector.** A list of numbers is the vector of these numbers. -/
theorem toBlock_ofReals (xs : List α) : (ofReals xs).toBlock = .ok ⟨[xs.length], xs⟩ := by
  rw [toBlock, extent_ofReals, leaves_ofReals, mapM_toEntry_reals]
  rfl

end Argument

namespace Validation

variable [Scalar α]

/-! ## Checking a number -/

/-- A number passes the check as what it is, whatever its name. -/
theorem positive_eq_ok_iff {x : α} {name : String} {h : Positive α} :
    positive x name = .ok h ↔ h.val = x := by
  constructor
  · intro hx
    rw [positive] at hx
    split at hx
    · cases hx
      rfl
    · cases hx
  · rintro rfl
    exact dif_pos h.isPositive

theorem requirePositive_val (h : Positive α) (name : String) :
    requirePositive (.real h.val) name = .ok h :=
  positive_eq_ok_iff.mpr rfl

/-! ## Checking a vector -/

omit [Scalar α] in
/-- The check of sizes succeeds for equal sizes only. -/
theorem eq_of_checkSize {actual expected : Nat} {what : String} {u : Unit}
    (h : (checkSize actual expected what : Except (Fault α) Unit) = .ok u) : actual = expected := by
  rw [checkSize] at h
  split at h
  · next heq => exact heq
  · cases h

/-- A list of numbers is a point. -/
theorem requirePoint_ofReals (xs : List α) (name : String) :
    requirePoint (Argument.ofReals xs) name = .ok xs := by
  rw [requirePoint]
  show (Argument.ofReals xs).toBlock >>= _ = _
  rw [Argument.toBlock_ofReals]
  rfl

/-- Checked numbers pass the check on entries. -/
theorem positiveEntries_map_val (name : String) (i : Nat) (hs : List (Positive α)) :
    positiveEntries name i (hs.map (·.val)) = .ok hs := by
  induction hs generalizing i with
  | nil => rfl
  | cons h hs ih =>
    rw [List.map_cons, positiveEntries, dif_pos h.isPositive, ih]
    rfl

/-- **Checking a bandwidth vector.** At least one positive number is a vector of bandwidths. -/
theorem requirePositiveVector_ofReals {hs : List (Positive α)} (hne : hs ≠ []) (name : String) :
    requirePositiveVector (Argument.ofReals (hs.map (·.val))) name = .ok hs := by
  rw [requirePositiveVector]
  show (Argument.ofReals (hs.map (·.val))).toBlock >>= _ = _
  rw [Argument.toBlock_ofReals]
  show (if _ then _ else _) = _
  rw [if_neg (by simp [hne])]
  exact positiveEntries_map_val name 0 hs

end Validation

end FiniteDifference
