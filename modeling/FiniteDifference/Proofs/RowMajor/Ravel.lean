import FiniteDifference.Proofs.RowMajor.Interleaving
import Mathlib.Algebra.Order.Ring.Rat
import Mathlib.Tactic.Ring

/-!
# Linear positions of arguments

A sequence of integers, given by arguments, has a linear position if there is one index for each axis and
each lies within its axis.  The multiplications and additions from the first axis on make the sum over all
axes in nested form; the first index outside its axis is refused, unless the refusal cannot be written.
-/

namespace FiniteDifference.RowMajor

variable {α : Type}

/-! ## Sequences of integers -/

/-- A list of natural numbers as an argument. -/
def ofNats (ns : List ℕ) : Argument α := .list (ns.map fun n : ℕ => .int n)

/-- A list of integers as an argument. -/
def ofInts (is : List ℤ) : Argument α := .list (is.map .int)

theorem ofInts_map_natCast (ns : List ℕ) :
    (ofInts (ns.map fun n : ℕ => (n : ℤ)) : Argument α) = ofNats ns := by
  rw [ofInts, ofNats, List.map_map]
  rfl

/-- **Sequences within the axes.** There is one index for each axis, and it is at least zero and below the
length of the axis. -/
def Within (index : List ℤ) (lengths : List ℕ) : Prop :=
  List.Forall₂ (fun (i : ℤ) (n : ℕ) => 0 ≤ i ∧ i < n) index lengths

/-- The first index outside its axis, with the length of this axis. -/
def firstOutside? (index : List ℤ) (lengths : List ℕ) : Option (ℤ × ℕ) :=
  (index.zip lengths).find? fun (i, n) => ¬(0 ≤ i ∧ i < (n : ℤ))

/-- **Linear positions.** The sum of each index times the product of the later lengths. -/
def linearPosition (lengths : List ℕ) (index : List ℤ) : ℤ :=
  (index.mapIdx fun a i => i * ((lengths.drop (a + 1)).prod : ℤ)).sum

theorem linearPosition_cons (n : ℕ) (lengths : List ℕ) (i : ℤ) (index : List ℤ) :
    linearPosition (n :: lengths) (i :: index) = i * lengths.prod + linearPosition lengths index := by
  rw [linearPosition, List.mapIdx_cons, List.sum_cons]
  rfl

/-- A sequence with one index for each axis is within the axes if no index is outside its axis. -/
theorem within_iff_firstOutside? {index : List ℤ} {lengths : List ℕ} (h : index.length = lengths.length) :
    Within index lengths ↔ firstOutside? index lengths = none := by
  rw [Within, List.forall₂_iff_zip, firstOutside?, List.find?_eq_none]
  simp [h]

theorem within_map_natCast {index lengths : List ℕ} :
    Within (index.map fun i : ℕ => (i : ℤ)) lengths ↔ List.Forall₂ (· < ·) index lengths := by
  simp only [Within, List.forall₂_map_left_iff, Int.natCast_nonneg, true_and, Int.ofNat_lt]

/-- The linear position of natural numbers. -/
theorem linearPosition_map_natCast {index lengths : List ℕ} (h : index.length = lengths.length) :
    linearPosition lengths (index.map fun i : ℕ => (i : ℤ)) = position lengths index := by
  induction lengths generalizing index with
  | nil =>
    obtain rfl := List.length_eq_zero_iff.mp h
    rfl
  | cons n lengths ih =>
    obtain ⟨i, index, rfl⟩ := List.exists_cons_of_length_eq_add_one h
    rw [List.map_cons, linearPosition_cons, ih (Nat.succ.inj h), position, size_eq_prod]
    push_cast
    rfl

/-! ## Computed positions -/

variable [Scalar α]

theorem isIndexBelow_int (i : ℤ) (n : ℕ) :
    (Quantity.int i : Quantity α).isIndexBelow n = decide (0 ≤ i ∧ i < (n : ℤ)) := by
  have hlow : (0 : ℚ) ≤ (i : ℚ) ↔ 0 ≤ i := Rat.intCast_nonneg
  have hhigh : (i : ℚ) < (n : ℚ) ↔ i < (n : ℤ) := by exact_mod_cast Iff.rfl
  simp only [Quantity.isIndexBelow, Quantity.rational?, hlow, hhigh, Bool.decide_and]

omit [Scalar α] in
/-- **Refused indices.** The text of the refusal shows the index and the length of the axis; if one of them has
more digits than can be written, this is the fault. -/
theorem refusal_indexOutside (i : ℤ) (n : ℕ) :
    Fault.refusal (.indexOutside (.int i : Argument α) n)
      = if i.natAbs < 10 ^ Reading.digitLimit ∧ n < 10 ^ Reading.digitLimit then
          .invalid (.indexOutside (.int i) n)
        else .malformed (.tooManyDigits none) := by
  rw [Fault.refusal, Fault.told]
  refine if_congr ?_ rfl rfl
  simp [Fault.shown, Invalid.shown, Argument.areWritable, Argument.isWritable, Fraction.isShort]

/-- **Nested multiplication.** The position of the axes in front is multiplied by the number of multi-indices of
the later ones; the first index outside its axis ends the computation. -/
theorem ravelFrom_eq {index : List ℤ} {lengths : List ℕ} (h : index.length = lengths.length) (linear : ℤ) :
    ravelFrom (.int linear) (index.map (.int : ℤ → Argument α)) lengths
      = match firstOutside? index lengths with
        | some (i, n) => .error (.refusal (.indexOutside (.int i) n))
        | none => .ok (.int (linear * lengths.prod + linearPosition lengths index)) := by
  induction lengths generalizing index linear with
  | nil =>
    obtain rfl := List.length_eq_zero_iff.mp h
    simp [ravelFrom, firstOutside?, linearPosition]
  | cons n lengths ih =>
    obtain ⟨i, index, rfl⟩ := List.exists_cons_of_length_eq_add_one h
    have hrest := ih (Nat.succ.inj h) (linear * n + i)
    have hstep : ravelFrom (.int linear) ((i :: index).map (.int : ℤ → Argument α)) (n :: lengths)
        = if 0 ≤ i ∧ i < (n : ℤ) then
            ravelFrom (.int (linear * n + i)) (index.map (.int : ℤ → Argument α)) lengths
          else .error (.refusal (.indexOutside (.int i) n)) := by
      rw [List.map_cons, ravelFrom]
      simp only [Quantity.ofArgument?, isIndexBelow_int, decide_eq_true_eq]
      exact if_congr Iff.rfl rfl rfl
    rw [hstep, firstOutside?, List.zip_cons_cons, List.find?_cons]
    by_cases hi : 0 ≤ i ∧ i < (n : ℤ)
    · have hnested : (linear * n + i) * lengths.prod + linearPosition lengths index
          = linear * (n :: lengths).prod + linearPosition (n :: lengths) (i :: index) := by
        rw [linearPosition_cons, List.prod_cons]
        push_cast
        ring
      rw [if_pos hi, hrest, hnested]
      simp only [hi, and_self, not_true_eq_false, decide_false]
      rfl
    · rw [if_neg hi]
      simp only [hi, not_false_eq_true, decide_true]

/-- **Linear positions of sequences.** In an index space of positive lengths, a sequence with another number
of indices is a mismatch, one with an index outside its axis is refused, and any other one has its linear
position. -/
theorem ravel_ofInts {lengths : List ℕ} (hne : lengths ≠ []) (hpos : ∀ n ∈ lengths, 0 < n)
    (index : List ℤ) :
    ravel (ofInts index) (ofNats lengths : Argument α)
      = if index.length = lengths.length then
          match firstOutside? index lengths with
          | some (i, n) => .error (.refusal (.indexOutside (.int i) n))
          | none => .ok (.int (linearPosition lengths index))
        else .error (.mismatch "multi-index dimension" (.int index.length) (.int lengths.length)) := by
  have hlengths : lengthsOfArgument (ofNats lengths : Argument α) = .ok lengths :=
    lengthsOfList_ofNat hne hpos
  rw [ravel, hlengths]
  show (Validation.checkSize (index.map (.int : ℤ → Argument α)).length lengths.length
    "multi-index dimension" >>= fun _ => ravelFrom (.int 0) (index.map .int) lengths) = _
  rw [List.length_map, Validation.checkSize]
  by_cases h : index.length = lengths.length
  · have hfrom := ravelFrom_eq (α := α) h 0
    rw [zero_mul, zero_add] at hfrom
    rw [if_pos h, if_pos h]
    exact hfrom
  · rw [if_neg h, if_neg h]
    rfl

theorem ravel_of_within {lengths : List ℕ} (hne : lengths ≠ []) (hpos : ∀ n ∈ lengths, 0 < n)
    {index : List ℤ} (h : Within index lengths) :
    ravel (ofInts index) (ofNats lengths : Argument α) = .ok (.int (linearPosition lengths index)) := by
  rw [ravel_ofInts hne hpos, if_pos h.length_eq, (within_iff_firstOutside? h.length_eq).mp h]

/-- **Linear positions.** A multi-index within the axes has its linear position. -/
theorem ravel_eq {lengths index : List ℕ} (hne : lengths ≠ []) (hpos : ∀ n ∈ lengths, 0 < n)
    (h : List.Forall₂ (· < ·) index lengths) :
    ravel (ofNats index) (ofNats lengths : Argument α) = .ok (.int (position lengths index)) := by
  rw [← ofInts_map_natCast, ravel_of_within hne hpos (within_map_natCast.mpr h),
    linearPosition_map_natCast h.length_eq]

end FiniteDifference.RowMajor
