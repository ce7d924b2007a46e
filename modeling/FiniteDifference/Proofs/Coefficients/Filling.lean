import FiniteDifference.Proofs.Coefficients.Tensor
import FiniteDifference.Proofs.RowMajor.Writing
import FiniteDifference.Stencil.Filling
import Mathlib.Data.List.GetD

/-!
# Filled tensors

The tensor product of rows that are as long as their axes has the product of the entries of the rows at each
multi-index, at its linear position.  `filled` writes these products one by one, and a short row makes a write
fail.
-/

namespace FiniteDifference.Coefficients

variable {α : Type}

/-! ## Entries -/

/-- The product of the entries of the rows at a multi-index. -/
def entry (rows : List (List ℚ)) (index : List ℕ) : ℚ :=
  (List.zipWith (fun (row : List ℚ) i => row.getD i 0) rows index).prod

/-- The multi-index lies within the rows. -/
def Within (index : List ℕ) (rows : List (List ℚ)) : Prop :=
  List.Forall₂ (fun i row => i < row.length) index rows

/-- There is one row for each axis, and it is at least as long as the axis. -/
def LongEnough (lengths : List ℕ) (rows : List (List ℚ)) : Prop :=
  List.Forall₂ (fun n row => n ≤ row.length) lengths rows

instance (lengths : List ℕ) (rows : List (List ℚ)) : Decidable (LongEnough lengths rows) :=
  inferInstanceAs (Decidable (List.Forall₂ _ lengths rows))

/-- The entries at all multi-indices in row-major order. -/
def entries (lengths : List ℕ) (rows : List (List ℚ)) : List ℚ :=
  (List.range (RowMajor.size lengths)).map fun j => entry rows (RowMajor.digits lengths j)

@[simp] theorem length_entries (lengths : List ℕ) (rows : List (List ℚ)) :
    (entries lengths rows).length = RowMajor.size lengths := by
  rw [entries, List.length_map, List.length_range]

theorem getElem?_entries {lengths index : List ℕ} (h : List.Forall₂ (· < ·) index lengths)
    (rows : List (List ℚ)) :
    (entries lengths rows)[RowMajor.position lengths index]? = some (entry rows index) := by
  rw [entries, List.getElem?_map, List.getElem?_range (RowMajor.position_lt_size h), Option.map_some,
    RowMajor.digits_position h]

theorem entry_cons (row : List ℚ) (rows : List (List ℚ)) (i : ℕ) (index : List ℕ) :
    entry (row :: rows) (i :: index) = row.getD i 0 * entry rows index := by
  rw [entry, List.zipWith_cons_cons, List.prod_cons, entry]

/-- A multi-index within the axes is within rows that are as long as these. -/
theorem LongEnough.within {lengths index : List ℕ} {rows : List (List ℚ)} (h : LongEnough lengths rows)
    (hindex : List.Forall₂ (· < ·) index lengths) : Within index rows := by
  induction h generalizing index with
  | nil =>
    cases hindex
    exact .nil
  | cons hn h ih =>
    obtain _ | ⟨hi, hrest⟩ := hindex
    exact .cons (hi.trans_le hn) (ih hrest)

/-- The product at a multi-index within the rows. -/
theorem productFrom_eq_ok {rows : List (List ℚ)} {index : List ℕ} (h : Within index rows) (p : ℚ) :
    (productFrom p rows index : Except (Fault α) ℚ) = .ok (p * entry rows index) := by
  induction h generalizing p with
  | nil => simp [productFrom, entry]
  | @cons i row index rows hi h ih =>
    have hrow : row[i]? = some (row.getD i 0) := by
      rw [List.getElem?_eq_getElem hi, List.getD_eq_getElem _ _ hi]
    rw [productFrom, hrow, entry_cons, ← mul_assoc]
    exact ih _

/-- At a multi-index that is not within the rows there is no product. -/
theorem productFrom_eq_error {rows : List (List ℚ)} {index : List ℕ} (hlength : index.length = rows.length)
    (h : ¬Within index rows) (p : ℚ) :
    (productFrom p rows index : Except (Fault α) ℚ) = .error (.index .tuple) := by
  induction index generalizing rows p with
  | nil =>
    obtain rfl := List.eq_nil_of_length_eq_zero hlength.symm
    exact absurd .nil h
  | cons i index ih =>
    obtain _ | ⟨row, rows⟩ := rows
    · cases hlength
    rw [productFrom]
    by_cases hi : i < row.length
    · have hrest : ¬Within index rows := fun hrest => h (.cons hi hrest)
      rw [List.getElem?_eq_getElem hi]
      exact ih (Nat.succ.inj hlength) hrest _
    · -- the first row is too short, whatever the others are
      rw [List.getElem?_eq_none (Nat.le_of_not_lt hi)]

/-! ## Outer products by multi-indices -/

/-- The first entries of a row. -/
theorem take_eq_map_getD {n : ℕ} {row : List ℚ} (h : n ≤ row.length) :
    row.take n = (List.range n).map fun i => row.getD i 0 := by
  apply List.ext_getElem
  · rw [List.length_take, List.length_map, List.length_range, Nat.min_eq_left h]
  · intro i hi hi'
    rw [List.length_take] at hi
    rw [List.getElem_take, List.getElem_map, List.getElem_range,
      List.getD_eq_getElem _ _ (hi.trans_le (Nat.min_le_right n row.length))]

/-- **Outer products.** The outer product of the rows cut to the axes holds the entries at all multi-indices
in row-major order. -/
theorem outer_take_eq {lengths : List ℕ} {rows : List (List ℚ)} (h : LongEnough lengths rows) :
    outer ((lengths.zip rows).map fun (n, row) => row.take n) = entries lengths rows := by
  induction h with
  | nil => rfl
  | @cons n row lengths rows hn h ih =>
    rw [entries, RowMajor.map_digits_cons (entry (row :: rows)), List.zip_cons_cons, List.map_cons, outer, ih]
    show ((row.take n).flatMap _) = _
    rw [take_eq_map_getD hn, List.flatMap_map]
    refine congrArg (List.flatMap · (List.range n)) (funext fun i => ?_)
    rw [entries, List.map_map]
    refine List.map_congr_left fun j _ => ?_
    rw [Function.comp_apply, entry_cons]

/-- The rows are as long as their axes exactly if the last multi-index is within them. -/
theorem within_last_iff {lengths : List ℕ} (hpos : ∀ n ∈ lengths, 0 < n) (rows : List (List ℚ)) :
    Within (lengths.map (· - 1)) rows ↔ LongEnough lengths rows := by
  rw [Within, LongEnough, List.forall₂_map_left_iff]
  induction lengths generalizing rows with
  | nil => rw [List.forall₂_nil_left_iff, List.forall₂_nil_left_iff]
  | cons n lengths ih =>
    obtain ⟨hn, hrest⟩ := List.forall_mem_cons.mp hpos
    have hfirst : ∀ row : List ℚ, n - 1 < row.length ↔ n ≤ row.length := by
      intro row
      omega
    simp only [List.forall₂_cons_left_iff, hfirst, ih hrest]

/-- **Tensor products of rows.** There is one exactly if the rows are as long as their axes. -/
theorem tensorProduct?_eq {lengths : List ℕ} {rows : List (List ℚ)}
    (hlength : lengths.length = rows.length) :
    tensorProduct? lengths rows =
      if LongEnough lengths rows then some (entries lengths rows) else none := by
  have hall : (lengths.zip rows).all (fun (n, row) => n ≤ row.length) = true ↔ LongEnough lengths rows := by
    rw [LongEnough, List.forall₂_iff_zip, List.all_eq_true]
    simp [hlength]
  rw [tensorProduct?]
  by_cases h : LongEnough lengths rows
  · rw [if_pos h, if_pos (hall.mpr h), outer_take_eq h]
  · rw [if_neg h, if_neg (hall.not.mpr h)]

/-- **Coefficients of rows.** If the multi-indices can be counted, the only obstacle is a short row. -/
theorem ofRows_eq {lengths : List ℕ} {rows : List (List ℚ)} (hlength : lengths.length = rows.length)
    (hsize : RowMajor.size lengths < RowMajor.sizeBound) :
    (ofRows lengths rows : Except (Fault α) (List ℚ)) =
      if LongEnough lengths rows then .ok (entries lengths rows) else .error (.index .tuple) := by
  rw [ofRows, RowMajor.countedSize, if_pos hsize, tensorProduct?_eq hlength]
  by_cases h : LongEnough lengths rows
  · simp only [if_pos h]
    rfl
  · simp only [if_neg h]
    rfl

/-! ## Filling -/

/-- **Successful writes.** If the multi-indices are within the rows, the entry at each of them goes to its linear
position. -/
theorem foldlM_write_eq_ok {rows : List (List ℚ)} {visits : List (List ℕ × ℕ)}
    (h : ∀ v ∈ visits, Within v.1 rows) (flat : List ℚ) :
    (visits.foldlM (write rows) flat : Except (Fault α) (List ℚ))
      = .ok (visits.foldl (fun flat v => flat.set v.2 (entry rows v.1)) flat) := by
  induction visits generalizing flat with
  | nil => rfl
  | cons v visits ih =>
    obtain ⟨hv, hrest⟩ := List.forall_mem_cons.mp h
    rw [List.foldlM_cons, write, productFrom_eq_ok hv, one_mul, List.foldl_cons, ← ih hrest]
    rfl

/-- **A failing write.** A write fails only for a multi-index that is not within the rows, whatever was written
before, so a sequence of writes that meets such a multi-index fails. -/
theorem foldlM_write_eq_error {rows : List (List ℚ)} {visits : List (List ℕ × ℕ)}
    (hlength : ∀ v ∈ visits, v.1.length = rows.length) (h : ∃ v ∈ visits, ¬Within v.1 rows) (flat : List ℚ) :
    (visits.foldlM (write rows) flat : Except (Fault α) (List ℚ)) = .error (.index .tuple) := by
  induction visits generalizing flat with
  | nil =>
    obtain ⟨v, hv, -⟩ := h
    exact absurd hv List.not_mem_nil
  | cons v visits ih =>
    obtain ⟨hv, hrest⟩ := List.forall_mem_cons.mp hlength
    rw [List.foldlM_cons, write]
    by_cases hwithin : Within v.1 rows
    · -- this write succeeds, so a later one fails
      have hlater : ∃ w ∈ visits, ¬Within w.1 rows := by
        obtain ⟨w, hw, hout⟩ := h
        rcases List.mem_cons.mp hw with rfl | hw
        · exact absurd hwithin hout
        · exact ⟨w, hw, hout⟩
      rw [productFrom_eq_ok hwithin]
      exact ih hrest hlater _
    · rw [productFrom_eq_error hv hwithin]
      rfl

/-- The writes of a whole traversal, if the rows are as long as their axes. -/
theorem foldlM_write_traversal_eq_ok {lengths : List ℕ} {rows : List (List ℚ)} (h : LongEnough lengths rows) :
    ((RowMajor.traversal lengths).foldlM (write rows) (List.replicate (RowMajor.size lengths) 0) :
        Except (Fault α) (List ℚ))
      = .ok (entries lengths rows) := by
  have hwithin : ∀ v ∈ RowMajor.traversal lengths, Within v.1 rows := by
    intro v hv
    rw [RowMajor.traversal_eq, List.mem_map] at hv
    obtain ⟨j, hj, rfl⟩ := hv
    exact h.within (RowMajor.forall₂_digits (List.mem_range.mp hj))
  rw [foldlM_write_eq_ok hwithin, RowMajor.foldl_set_traversal _ _ List.length_replicate, entries]

/-- The writes of a whole traversal, if a row is too short: the last multi-index is not within the rows. -/
theorem foldlM_write_traversal_eq_error {lengths : List ℕ} {rows : List (List ℚ)}
    (hpos : ∀ n ∈ lengths, 0 < n) (hlength : lengths.length = rows.length) (h : ¬LongEnough lengths rows)
    (flat : List ℚ) :
    ((RowMajor.traversal lengths).foldlM (write rows) flat : Except (Fault α) (List ℚ))
      = .error (.index .tuple) := by
  have hlast := RowMajor.forall₂_last hpos
  rw [RowMajor.traversal_eq]
  apply foldlM_write_eq_error
  · intro v hv
    obtain ⟨j, hj, rfl⟩ := List.mem_map.mp hv
    rw [(RowMajor.forall₂_digits (List.mem_range.mp hj)).length_eq, hlength]
  · refine ⟨(lengths.map (· - 1), RowMajor.position lengths (lengths.map (· - 1))), ?_, ?_⟩
    · rw [List.mem_map]
      refine ⟨_, List.mem_range.mpr (RowMajor.position_lt_size hlast), ?_⟩
      rw [RowMajor.digits_position hlast]
    · rwa [within_last_iff hpos]

/-- **Filling.** Over axes with points and with one row for each axis, filling gives the tensor product of the
rows, or the same fault. -/
theorem filled_eq_ofRows {lengths : List ℕ} {rows : List (List ℚ)} (hpos : ∀ n ∈ lengths, 0 < n)
    (hlength : lengths.length = rows.length) :
    (filled lengths rows : Except (Fault α) (List ℚ)) = ofRows lengths rows := by
  by_cases hsize : RowMajor.size lengths < RowMajor.sizeBound
  · rw [ofRows_eq hlength hsize, filled, RowMajor.countedSize, if_pos hsize]
    by_cases h : LongEnough lengths rows
    · rw [if_pos h]
      exact foldlM_write_traversal_eq_ok h
    · rw [if_neg h]
      exact foldlM_write_traversal_eq_error hpos hlength h _
  · rw [filled, ofRows, RowMajor.countedSize, if_neg hsize]
    rfl

end FiniteDifference.Coefficients
