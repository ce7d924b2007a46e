import FiniteDifference.Proofs.Coefficients.Filling
import FiniteDifference.Proofs.RowMajor.Ravel
import FiniteDifference.Scalar.Exact
import Mathlib.Algebra.BigOperators.Fin
import Mathlib.Data.List.Indexes

/-!
# The layout of tensor coefficients

The coefficients of a tensor stencil from any lookup of rows.  The lookup is called once for each axis, in
order; the outcome depends on its answers alone, and if these are long enough, the coefficient at the linear
position of a multi-index is the product of one entry of each row.
-/

namespace FiniteDifference

variable {α : Type}

theorem Tensor.lengths_eq_ofFn (t : Tensor) :
    t.lengths = List.ofFn fun a : Fin t.axes.length => t.axes[a].length :=
  (List.ofFn_getElem_eq_map t.axes Stencil.length).symm

namespace Coefficients

/-! ## Lookups -/

/-- What may fail and records the stencils that are looked up. -/
abbrev Recorded (α : Type) := ExceptT (Fault α) (StateM (List Stencil))

/-- **Recorded lookups.** A lookup that answers with any rows, which may depend on the stencils looked up
before, and records its calls. -/
def recordedLookup (answer : List Stencil → Stencil → List ℚ) (s : Stencil) : Recorded α (List ℚ) := do
  let seen ← get
  set (seen ++ [s])
  return answer seen s

/-- The coefficients of a tensor stencil from recorded lookups, and the stencils that were looked up. -/
def ofTensorRecorded (answer : List Stencil → Stencil → List ℚ) (t : Tensor) :
    Except (Fault α) (List ℚ) × List Stencil :=
  (ofTensor (α := α) (recordedLookup answer) t : Recorded α (List ℚ)).run.run []

/-- The answer to the lookup of an axis, after those of the axes in front of it. -/
def answered (answer : List Stencil → Stencil → List ℚ) (axes : List Stencil) (a : Fin axes.length) :
    List ℚ :=
  answer (axes.take a) axes[a]

/-- **Looking up further axes.** Each is looked up once, in order, and after those looked up before. -/
theorem run_mapM_recordedLookup (answer : List Stencil → Stencil → List ℚ) (axes seen : List Stencil) :
    (axes.mapM (recordedLookup answer) : Recorded α _).run.run seen
      = (.ok (axes.mapIdx fun a s => answer (seen ++ axes.take a) s), seen ++ axes) := by
  induction axes generalizing seen with
  | nil =>
    rw [List.append_nil]
    rfl
  | cons s axes ih =>
    have hrest := ih (seen ++ [s])
    simp only [List.append_assoc, List.singleton_append] at hrest
    rw [List.mapM_cons, List.mapIdx_cons]
    show (axes.mapM (recordedLookup answer) >>= fun rows => pure (answer seen s :: rows) :
        Recorded α _).run.run (seen ++ [s]) = _
    rw [ExceptT.run_bind, StateT.run_bind, hrest]
    simp only [List.take_zero, List.append_nil, List.take_succ_cons]
    rfl

/-- **Looking up the axes.** The rows are the answers to the lookups. -/
theorem ofTensorRecorded_eq (answer : List Stencil → Stencil → List ℚ) (t : Tensor) :
    (ofTensorRecorded answer t : Except (Fault α) _ × _)
      = (ofRows t.lengths (List.ofFn (answered answer t.axes)), t.axes) := by
  have hrows : (t.axes.mapIdx fun a s => answer (t.axes.take a) s) = List.ofFn (answered answer t.axes) :=
    List.mapIdx_eq_ofFn _ _
  have hlookup := run_mapM_recordedLookup (α := α) answer t.axes []
  simp only [List.nil_append, hrows] at hlookup
  rw [ofTensorRecorded, ofTensor, ExceptT.run_bind, StateT.run_bind, hlookup]
  rfl

/-! ## Lists by number -/

theorem forall₂_ofFn {β γ : Type} {R : β → γ → Prop} {n : ℕ} (f : Fin n → β) (g : Fin n → γ) :
    List.Forall₂ R (List.ofFn f) (List.ofFn g) ↔ ∀ i, R (f i) (g i) := by
  rw [List.forall₂_iff_get]
  simp [Fin.forall_iff]

/-- The entry at a multi-index given by number. -/
theorem entry_ofFn {n : ℕ} (rows : Fin n → List ℚ) (m : Fin n → ℕ) :
    entry (List.ofFn rows) (List.ofFn m) = ∏ a, (rows a).getD (m a) 0 := by
  have hzip : List.zipWith (fun (row : List ℚ) i => row.getD i 0) (List.ofFn rows) (List.ofFn m)
      = List.ofFn fun a => (rows a).getD (m a) 0 := by
    apply List.ext_getElem
    · simp
    · intro a h h'
      simp
  rw [entry, hzip, List.prod_ofFn]

/-! ## Layout -/

theorem longEnough_answered_iff (answer : List Stencil → Stencil → List ℚ) (t : Tensor) :
    LongEnough t.lengths (List.ofFn (answered answer t.axes))
      ↔ ∀ a : Fin t.axes.length, t.axes[a].length ≤ (answered answer t.axes a).length := by
  rw [LongEnough, t.lengths_eq_ofFn, forall₂_ofFn]

variable [Scalar α]

/-- **Tensor layout.** For any tensor stencil whose grid points can be counted and any answers to the lookups of
its axes, each axis is looked up once, in order, and the outcome is that of filling the tensor with the answers.
It is an index fault exactly if some answer is shorter than its axis.  Otherwise there is one coefficient per
grid point, and the one at the linear position of a multi-index within the axes is the product of the entries of
the answers there. -/
theorem ofTensorRecorded_layout (answer : List Stencil → Stencil → List ℚ) (t : Tensor)
    (hsize : t.size < RowMajor.sizeBound) :
    ∃ outcome : Except (Fault α) (List ℚ),
      ofTensorRecorded answer t = (outcome, t.axes) ∧
      outcome = filled t.lengths (List.ofFn (answered answer t.axes)) ∧
      (outcome = .error (.index .tuple) ↔
        ∃ a : Fin t.axes.length, (answered answer t.axes a).length < t.axes[a].length) ∧
      ∀ hlong : ∀ a : Fin t.axes.length, t.axes[a].length ≤ (answered answer t.axes a).length,
        ∃ coefficients, outcome = .ok coefficients ∧ coefficients.length = t.lengths.prod ∧
          ∀ (m : Fin t.axes.length → ℕ) (hm : ∀ a, m a < t.axes[a].length), ∃ l : ℕ,
            RowMajor.ravel (RowMajor.ofNats (List.ofFn m)) (RowMajor.ofNats t.lengths : Argument α)
              = .ok (.int l) ∧
            coefficients[l]?
              = some (∏ a, (answered answer t.axes a).get ⟨m a, (hm a).trans_le (hlong a)⟩) := by
  have hlength : t.lengths.length = (List.ofFn (answered answer t.axes)).length := by
    rw [Tensor.lengths, List.length_map, List.length_ofFn]
  have hrows := ofRows_eq (α := α) hlength hsize
  refine ⟨_, ofTensorRecorded_eq answer t, (filled_eq_ofRows t.lengths_pos hlength).symm, ?_, ?_⟩
  · rw [hrows]
    by_cases h : LongEnough t.lengths (List.ofFn (answered answer t.axes))
    · have hnone : ¬∃ a : Fin t.axes.length, (answered answer t.axes a).length < t.axes[a].length := by
        rintro ⟨a, ha⟩
        exact absurd ((longEnough_answered_iff answer t).mp h a) (Nat.not_le.mpr ha)
      rw [if_pos h]
      exact iff_of_false (fun hfault => by cases hfault) hnone
    · have hshort := h
      rw [longEnough_answered_iff, not_forall] at hshort
      rw [if_neg h]
      exact iff_of_true rfl (hshort.imp fun a => Nat.lt_of_not_le)
  · intro hlong
    have h := (longEnough_answered_iff answer t).mpr hlong
    rw [hrows, if_pos h]
    refine ⟨_, rfl, ?_, ?_⟩
    · rw [length_entries, RowMajor.size_eq_prod]
    · intro m hm
      have hindex : List.Forall₂ (· < ·) (List.ofFn m) t.lengths := by
        rw [t.lengths_eq_ofFn, forall₂_ofFn]
        exact hm
      have hne : t.lengths ≠ [] := by
        rw [Tensor.lengths, Ne, List.map_eq_nil_iff]
        exact t.axes_ne_nil
      refine ⟨_, RowMajor.ravel_eq hne t.lengths_pos hindex, ?_⟩
      rw [getElem?_entries hindex, entry_ofFn]
      refine congrArg some (Finset.prod_congr rfl fun a _ => ?_)
      exact List.getD_eq_getElem _ _ _

/-- The tensor stencil with a backward stencil along one axis and a central one along the other. -/
def backwardCentral : Tensor := ⟨[.twoPointBackward, .threePointCentral], List.cons_ne_nil _ _⟩

/-- Rows of successive numbers, each longer than its axis by the number of earlier lookups. -/
def countingRows (seen : List Stencil) (s : Stencil) : List ℚ :=
  (List.range (s.length + seen.length)).map fun i => (i + 1 : ℚ)

/-- Two axes with the rows `1, 2` and `1, 2, 3, 4`, of which the last entry is not used. -/
theorem ofTensorRecorded_countingRows :
    backwardCentral.size < RowMajor.sizeBound ∧
      ∃ coefficients, (ofTensorRecorded countingRows backwardCentral : Except (Fault ℚ) _ × _)
          = (.ok coefficients, backwardCentral.axes) ∧
        coefficients.length = 6 ∧ coefficients[5]? = some 6 := by
  let : Scalar ℚ := Scalar.exact fun x _ => x
  have hsize : backwardCentral.size < RowMajor.sizeBound := by decide
  obtain ⟨outcome, hrun, -, -, hlayout⟩ := ofTensorRecorded_layout (α := ℚ) countingRows backwardCentral hsize
  obtain ⟨coefficients, rfl, hlength, hentries⟩ := hlayout (by decide)
  obtain ⟨l, hravel, hentry⟩ := hentries (fun a => a.val + 1) (by decide)
  have hl : l = 5 := by
    injection hravel with hravel
    injection hravel with hravel
    exact (Int.ofNat.inj hravel).symm
  refine ⟨hsize, coefficients, hrun, hlength, ?_⟩
  rw [← hl, hentry]
  refine congrArg some ((Fin.prod_univ_two _).trans ?_)
  show ((1 : ℕ) + 1 : ℚ) * ((2 : ℕ) + 1) = 6
  norm_num

end Coefficients

end FiniteDifference
