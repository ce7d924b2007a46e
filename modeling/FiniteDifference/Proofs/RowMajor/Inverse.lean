import FiniteDifference.Proofs.RowMajor.Ravel
import FiniteDifference.Scalar.Binary64
import Mathlib

/-!
# Traversals and linear positions

The linear position is the inverse of the traversal: it takes the sequences within the axes one to one to the
integers from zero to below the product of the lengths, keeps their lexicographic order, and is the number
with which the traversal yields the sequence.
-/

namespace FiniteDifference.RowMajor

variable {α : Type} {lengths : List ℕ} {index : List ℤ}

/-! ## Sequences within the axes -/

/-- Sequences within the axes are sequences of natural numbers. -/
theorem exists_natCast_of_within (h : Within index lengths) :
    ∃ m : List ℕ, m.map (fun i : ℕ => (i : ℤ)) = index ∧ List.Forall₂ (· < ·) m lengths := by
  have hnonneg : ∀ i ∈ index, 0 ≤ i := by
    intro i hi
    obtain ⟨k, hk, rfl⟩ := List.mem_iff_getElem.mp hi
    exact (h.get hk (h.length_eq ▸ hk)).1
  have hcast : (index.map Int.toNat).map (fun i : ℕ => (i : ℤ)) = index := by
    rw [List.map_map]
    refine (List.map_congr_left fun i hi => ?_).trans (List.map_id index)
    exact Int.toNat_of_nonneg (hnonneg i hi)
  refine ⟨index.map Int.toNat, hcast, ?_⟩
  rw [← within_map_natCast, hcast]
  exact h

/-- **Sequences by position.** The sequences within the axes are the digits of the positions below the
size, each at its own linear position. -/
theorem within_iff_digits :
    Within index lengths ↔ ∃ j < size lengths,
      (digits lengths j).map (fun i : ℕ => (i : ℤ)) = index ∧ linearPosition lengths index = j := by
  constructor
  · intro h
    obtain ⟨m, rfl, hm⟩ := exists_natCast_of_within h
    refine ⟨position lengths m, position_lt_size hm, ?_, linearPosition_map_natCast hm.length_eq⟩
    rw [digits_position hm]
  · rintro ⟨j, hj, rfl, -⟩
    exact within_map_natCast.mpr (forall₂_digits hj)

theorem linearPosition_digits {j : ℕ} (hj : j < size lengths) :
    linearPosition lengths ((digits lengths j).map fun i : ℕ => (i : ℤ)) = j := by
  rw [linearPosition_map_natCast (forall₂_digits hj).length_eq, position_digits hj]

theorem linearPosition_mem_Ico (h : Within index lengths) :
    linearPosition lengths index ∈ Set.Ico 0 (lengths.prod : ℤ) := by
  obtain ⟨j, hj, -, hposition⟩ := within_iff_digits.mp h
  rw [hposition, ← size_eq_prod]
  exact ⟨Int.natCast_nonneg j, Int.ofNat_lt.mpr hj⟩

/-! ## Order -/

/-- **Lexicographic order.** A larger sequence has the larger linear position: the first axis on which two
sequences differ decides, since the later axes make up less than one step of it. -/
theorem linearPosition_lt {index' : List ℤ} (h : Within index lengths) (h' : Within index' lengths)
    (hlt : index < index') : linearPosition lengths index < linearPosition lengths index' := by
  induction lengths generalizing index index' with
  | nil =>
    obtain rfl := List.forall₂_nil_right_iff.mp h
    obtain rfl := List.forall₂_nil_right_iff.mp h'
    exact absurd hlt (List.lt_irrefl [])
  | cons n lengths ih =>
    obtain ⟨i, index, hi, hrest, rfl⟩ := List.forall₂_cons_right_iff.mp h
    obtain ⟨i', index', hi', hrest', rfl⟩ := List.forall₂_cons_right_iff.mp h'
    rw [linearPosition_cons, linearPosition_cons]
    rcases List.cons_lt_cons_iff.mp hlt with hless | ⟨rfl, hless⟩
    · obtain ⟨-, hbelow⟩ := linearPosition_mem_Ico hrest
      obtain ⟨hnonneg, -⟩ := linearPosition_mem_Ico hrest'
      have hstep : (i + 1) * (lengths.prod : ℤ) ≤ i' * lengths.prod :=
        mul_le_mul_of_nonneg_right hless (Int.natCast_nonneg _)
      rw [add_mul, one_mul] at hstep
      omega
    · exact Int.add_lt_add_left (ih hrest hrest' hless) _

theorem strictMonoOn_linearPosition (lengths : List ℕ) :
    StrictMonoOn (linearPosition lengths) {index | Within index lengths} :=
  fun _ h _ h' hlt => linearPosition_lt h h' hlt

/-- **Bijection.** Each integer from zero to below the product of the lengths is the linear position of exactly
one sequence within the axes. -/
theorem bijOn_linearPosition (lengths : List ℕ) :
    Set.BijOn (linearPosition lengths) {index | Within index lengths}
      (Set.Ico 0 (lengths.prod : ℤ)) := by
  refine ⟨fun _ h => linearPosition_mem_Ico h, (strictMonoOn_linearPosition lengths).injOn, ?_⟩
  rintro l ⟨hlow, hhigh⟩
  obtain ⟨j, rfl⟩ := Int.eq_ofNat_of_zero_le hlow
  have hj : j < size lengths := by
    rw [size_eq_prod]
    exact Int.ofNat_lt.mp hhigh
  exact ⟨_, within_iff_digits.mpr ⟨j, hj, rfl, linearPosition_digits hj⟩, linearPosition_digits hj⟩

/-! ## The inverse of the traversal -/

/-- The pairs that a traversal yields. -/
theorem mem_traversal {m : List ℕ} {j : ℕ} :
    (m, j) ∈ traversal lengths ↔ j < size lengths ∧ digits lengths j = m := by
  rw [traversal_eq, List.mem_map]
  constructor
  · rintro ⟨k, hk, heq⟩
    cases heq
    exact ⟨List.mem_range.mp hk, rfl⟩
  · rintro ⟨hj, rfl⟩
    exact ⟨j, List.mem_range.mpr hj, rfl⟩

variable [Scalar α] (hne : lengths ≠ []) (hpos : ∀ n ∈ lengths, 0 < n)
include hne hpos

/-- Exactly the sequences within the axes have a position, and this is the linear one. -/
theorem ravel_eq_ok_iff {l : Quantity α} :
    ravel (ofInts index) (ofNats lengths) = .ok l
      ↔ Within index lengths ∧ .int (linearPosition lengths index) = l := by
  constructor
  · intro h
    have hwithin : Within index lengths := by
      rw [ravel_ofInts hne hpos] at h
      split at h
      · next hlength =>
        rw [within_iff_firstOutside? hlength]
        split at h
        · cases h
        · next hnone => exact hnone
      · cases h
    rw [ravel_of_within hne hpos hwithin] at h
    exact ⟨hwithin, Except.ok.inj h⟩
  · rintro ⟨hwithin, rfl⟩
    exact ravel_of_within hne hpos hwithin

/-- The sequence with a given position consists of the digits of this position. -/
theorem ravel_eq_int_iff {l : ℤ} :
    ravel (ofInts index) (ofNats lengths : Argument α) = .ok (.int l)
      ↔ ∃ j < size lengths, (digits lengths j).map (fun i : ℕ => (i : ℤ)) = index ∧ (j : ℤ) = l := by
  rw [ravel_eq_ok_iff hne hpos]
  constructor
  · rintro ⟨hwithin, hl⟩
    obtain ⟨j, hj, hdigits, hposition⟩ := within_iff_digits.mp hwithin
    cases hl
    exact ⟨j, hj, hdigits, hposition.symm⟩
  · rintro ⟨j, hj, rfl, rfl⟩
    rw [linearPosition_digits hj]
    exact ⟨within_iff_digits.mpr ⟨j, hj, rfl, linearPosition_digits hj⟩, rfl⟩

/-- **The inverse of the traversal.** In an index space of positive lengths, exactly the sequences with one index
within each axis have a position; another number of indices is a mismatch, and the first index outside its axis
is invalid, unless it or the length of its axis has too many digits to be written in the message.  The position
is the sum of each index times the product of the later lengths.  It takes the sequences one to one to the
integers from zero to below the product of the lengths, keeps their lexicographic order, and belongs to a
sequence exactly if the traversal of the space yields the two as a pair. -/
theorem ravel_inverts_traversal :
    (∀ index : List ℤ,
      let outcome : Except (Fault α) (Quantity α) := ravel (ofInts index) (ofNats lengths)
      ((∃ l, outcome = .ok l) ↔ Within index lengths) ∧
      (Within index lengths → outcome = .ok (.int (linearPosition lengths index))) ∧
      (index.length ≠ lengths.length → outcome
        = .error (.mismatch "multi-index dimension" (.int index.length) (.int lengths.length))) ∧
      (index.length = lengths.length → ¬Within index lengths → ∃ i n,
        firstOutside? index lengths = some (i, n) ∧
          outcome = .error
            (if i.natAbs < 10 ^ Reading.digitLimit ∧ n < 10 ^ Reading.digitLimit then
              .invalid (.indexOutside (.int i) n)
            else .malformed (.tooManyDigits none)))) ∧
    Set.BijOn (linearPosition lengths) {index | Within index lengths} (Set.Ico 0 (lengths.prod : ℤ)) ∧
    StrictMonoOn (linearPosition lengths) {index | Within index lengths} ∧
    lengthsOfArguments [(ofNats lengths : Argument α)] = .ok lengths ∧
    ∀ (index : List ℤ) (l : ℤ),
      ravel (ofInts index) (ofNats lengths : Argument α) = .ok (.int l)
        ↔ (index, l) ∈ (traversal lengths).map fun (m, j) => (m.map fun i : ℕ => (i : ℤ), (j : ℤ)) := by
  refine ⟨fun index => ⟨?_, ravel_of_within hne hpos, fun hlength => ?_, fun hlength houtside => ?_⟩,
    bijOn_linearPosition lengths, strictMonoOn_linearPosition lengths, lengthsOfList_ofNat hne hpos,
    fun index l => ?_⟩
  · constructor
    · rintro ⟨l, hl⟩
      exact ((ravel_eq_ok_iff hne hpos).mp hl).1
    · intro h
      exact ⟨_, ravel_of_within hne hpos h⟩
  · rw [ravel_ofInts hne hpos, if_neg hlength]
  · rw [within_iff_firstOutside? hlength, ← ne_eq, Option.ne_none_iff_exists'] at houtside
    obtain ⟨⟨i, n⟩, hfirst⟩ := houtside
    refine ⟨i, n, hfirst, ?_⟩
    rw [ravel_ofInts hne hpos, if_pos hlength, hfirst, ← refusal_indexOutside]
  · rw [ravel_eq_int_iff hne hpos, List.mem_map]
    constructor
    · rintro ⟨j, hj, rfl, rfl⟩
      exact ⟨(digits lengths j, j), mem_traversal.mpr ⟨hj, rfl⟩, rfl⟩
    · rintro ⟨⟨m, j⟩, hmem, heq⟩
      obtain ⟨hj, rfl⟩ := mem_traversal.mp hmem
      cases heq
      exact ⟨j, hj, rfl, rfl⟩

omit hne hpos in
/-- A sequence within axes of three, four and two points, one that is too short, and one that leaves the second
axis. -/
theorem ravel_threeFourTwo :
    [3, 4, 2] ≠ [] ∧ (∀ n ∈ [3, 4, 2], 0 < n) ∧
      ravel (ofInts [2, 1, 1]) (ofNats [3, 4, 2] : Argument Float) = .ok (.int 19) ∧
      ravel (ofInts [2, 1]) (ofNats [3, 4, 2] : Argument Float)
        = .error (.mismatch "multi-index dimension" (.int 2) (.int 3)) ∧
      ravel (ofInts [2, 4, -1]) (ofNats [3, 4, 2] : Argument Float)
        = .error (.invalid (.indexOutside (.int 4) 4)) := by
  have hne : [3, 4, 2] ≠ [] := by decide
  have hpos : ∀ n ∈ [3, 4, 2], 0 < n := by decide
  obtain ⟨houtcome, -⟩ := ravel_inverts_traversal (α := Float) hne hpos
  have hwithin : Within [2, 1, 1] [3, 4, 2] := by
    rw [within_iff_firstOutside? rfl]
    decide
  have houtside : ¬Within [2, 4, -1] [3, 4, 2] := by
    rw [within_iff_firstOutside? rfl]
    decide
  refine ⟨hne, hpos, (houtcome [2, 1, 1]).2.1 hwithin, (houtcome [2, 1]).2.2.1 (by decide), ?_⟩
  obtain ⟨i, n, hfirst, hfault⟩ := (houtcome [2, 4, -1]).2.2.2 rfl houtside
  cases hfirst
  rw [if_pos (by decide +kernel)] at hfault
  exact hfault

omit hne hpos in
/-- An index with too many digits to be written is not invalid, though it lies outside its axis: the message
fails. -/
theorem not_invalid_beyond_digits :
    ¬∀ (lengths : List ℕ) (index : List ℤ), lengths ≠ [] → (∀ n ∈ lengths, 0 < n) →
      index.length = lengths.length → ¬Within index lengths →
        ∃ why, ravel (ofInts index) (ofNats lengths : Argument Float) = .error (.invalid why) := by
  intro hall
  have hne : [3] ≠ [] := by decide
  have hpos : ∀ n ∈ [3], 0 < n := by decide
  have houtside : ¬Within [10 ^ 5000] [3] := by
    rw [within_iff_firstOutside? rfl]
    decide +kernel
  have hlength : ([10 ^ 5000] : List ℤ).length = [3].length := rfl
  have hfirst : firstOutside? [10 ^ 5000] [3] = some (10 ^ 5000, 3) := by decide +kernel
  obtain ⟨why, hinvalid⟩ := hall [3] [10 ^ 5000] hne hpos hlength houtside
  rw [ravel_ofInts hne hpos, if_pos hlength, hfirst] at hinvalid
  dsimp only at hinvalid
  rw [refusal_indexOutside, if_neg (by decide +kernel)] at hinvalid
  cases hinvalid

end FiniteDifference.RowMajor
