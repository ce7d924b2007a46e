import FiniteDifference.Proofs.Coefficients.Layout
import FiniteDifference.Proofs.Derivative.Crews
import FiniteDifference.Proofs.Exact.Exactness
import FiniteDifference.Proofs.RowMajor.Inverse

/-!
# Grid points in several variables

In exact arithmetic the grid points around a point are listed by the linear positions of their multi-indices.
The index of an axis counts the bandwidths from the lowest end of its grid, so different multi-indices have
different grid points, and the point itself is the one whose indices lead from the lowest ends back to zero.
-/

open FiniteDifference.Action

namespace FiniteDifference

theorem Tensor.lengths_ne_nil (t : Tensor) : t.lengths ≠ [] := by
  rw [Tensor.lengths, Ne, List.map_eq_nil_iff]
  exact t.axes_ne_nil

/-- **Positions of multi-indices.** The linear position of a sequence of integers, one for each axis. -/
def Tensor.positionOf {α : Type} [Scalar α] (t : Tensor) (m : Fin t.dimension → ℤ) :
    Except (Fault α) (Quantity α) :=
  RowMajor.ravel (RowMajor.ofInts (List.ofFn m)) (RowMajor.ofNats t.lengths)

/-- **Grid points.** The point that lies some bandwidths above the lowest end of the grid along each axis. -/
def Tensor.gridPoint (t : Tensor) (x h : Fin t.dimension → ℚ) (m : Fin t.dimension → ℤ) : List ℚ :=
  List.ofFn fun a => x a + h a * ((t.axisOf a).left + m a)

namespace Multivariate

variable {t : Tensor} {x h : Fin t.dimension → ℚ}

/-! ## Single grid points -/

/-- Different multi-indices have different grid points. -/
theorem gridPoint_injective (hpos : ∀ a, 0 < h a) : Function.Injective (t.gridPoint x h) := by
  intro m m' heq
  funext a
  have hcoordinate := congrFun (List.ofFn_injective heq) a
  have hsum := mul_left_cancel₀ (hpos a).ne' (add_left_cancel hcoordinate)
  exact_mod_cast add_left_cancel hsum

/-- From the lowest ends of the grid the point itself is reached by going up to the offset zero. -/
theorem gridPoint_neg_left (t : Tensor) (x h : Fin t.dimension → ℚ) :
    t.gridPoint x h (fun a => -(t.axisOf a).left) = List.ofFn x := by
  refine congrArg List.ofFn (funext fun a => ?_)
  rw [Int.cast_neg, add_neg_cancel, mul_zero, add_zero]

/-- The indices that lead to the offset zero are within the axes. -/
theorem within_neg_left (t : Tensor) :
    RowMajor.Within (List.ofFn fun a => -(t.axisOf a).left) t.lengths := by
  rw [RowMajor.Within, t.lengths_eq_ofFn]
  refine (Coefficients.forall₂_ofFn _ _).mpr fun a => ?_
  show 0 ≤ -(t.axisOf a).left ∧ -(t.axisOf a).left < ((t.axisOf a).length : ℤ)
  rw [Stencil.left, Stencil.length]
  omega

/-- The multi-index of a position below the size. -/
theorem exists_digits_eq {j : ℕ} (hj : j < t.size) :
    ∃ m : Fin t.dimension → ℤ, (RowMajor.digits t.lengths j).map (fun i : ℕ => (i : ℤ)) = List.ofFn m := by
  have hlength : ((RowMajor.digits t.lengths j).map fun i : ℕ => (i : ℤ)).length = t.dimension := by
    rw [List.length_map, (RowMajor.forall₂_digits hj).length_eq]
    exact List.length_map _
  rw [← hlength]
  exact ⟨List.get _, (List.ofFn_get _).symm⟩

variable [FractionalPower]

/-- The coordinates at a multi-index are those of its grid point. -/
theorem coordinates_eq_gridPoint {index : List ℕ} {m : Fin t.dimension → ℤ}
    (hm : index.map (fun i : ℕ => (i : ℤ)) = List.ofFn m) :
    coordinates (List.ofFn x) (List.ofFn h) t.lefts index = t.gridPoint x h m := by
  have hlength : index.length = t.dimension := by
    rw [← List.length_map (fun i : ℕ => (i : ℤ)), hm, List.length_ofFn]
  have hlefts : t.lefts.length = t.dimension := List.length_map _
  refine List.ext_getElem (by simp [coordinates, Tensor.gridPoint, hlength, hlefts]) fun a ha ha' => ?_
  rw [Tensor.gridPoint, List.length_ofFn] at ha'
  have hentry := List.getElem_of_eq hm (i := a) (by rwa [List.length_map, hlength])
  rw [List.getElem_map, List.getElem_ofFn] at hentry
  simp only [coordinates, Tensor.gridPoint, Tensor.lefts, List.getElem_zipWith, List.getElem_ofFn,
    List.getElem_map, ← hentry, Int.cast_natCast]
  rfl

/-! ## The list of grid points -/

theorem getElem?_points {xs hs : List ℚ} {j : ℕ} (hj : j < t.size) :
    (points t xs hs)[j]? = some (coordinates xs hs t.lefts (RowMajor.digits t.lengths j)) := by
  rw [points_eq_map, List.getElem?_map]
  exact congrArg (Option.map _) (List.getElem?_range hj)

/-- The multi-index with a given position consists of the digits of this position. -/
theorem positionOf_eq_int_iff {m : Fin t.dimension → ℤ} {l : ℤ} :
    (t.positionOf m : Except (Fault ℚ) _) = .ok (.int l) ↔ ∃ j < t.size,
      (RowMajor.digits t.lengths j).map (fun i : ℕ => (i : ℤ)) = List.ofFn m ∧ (j : ℤ) = l :=
  RowMajor.ravel_eq_int_iff t.lengths_ne_nil t.lengths_pos

/-- Each position below the size is that of exactly one multi-index. -/
theorem existsUnique_positionOf {l : ℕ} (hl : l < t.size) :
    ∃! m, (t.positionOf m : Except (Fault ℚ) _) = .ok (.int l) := by
  obtain ⟨m, hm⟩ := exists_digits_eq hl
  refine ⟨m, positionOf_eq_int_iff.mpr ⟨l, hl, hm, rfl⟩, fun m' hm' => ?_⟩
  obtain ⟨j, -, hdigits, hj⟩ := positionOf_eq_int_iff.mp hm'
  obtain rfl := Int.ofNat.inj hj
  exact List.ofFn_injective (hdigits.symm.trans hm)

/-- The entry at the position of a multi-index is its grid point. -/
theorem getElem?_points_of_positionOf {m : Fin t.dimension → ℤ} {l : ℕ}
    (hm : (t.positionOf m : Except (Fault ℚ) _) = .ok (.int l)) :
    (points t (List.ofFn x) (List.ofFn h))[l]? = some (t.gridPoint x h m) := by
  obtain ⟨j, hj, hdigits, hl⟩ := positionOf_eq_int_iff.mp hm
  obtain rfl := Int.ofNat.inj hl
  rw [getElem?_points hj, coordinates_eq_gridPoint hdigits]

/-- **Grid points are pairwise distinct.** Two positions with the same grid point have the same multi-index,
and so they are the same. -/
theorem nodup_points (hpos : ∀ a, 0 < h a) : (points t (List.ofFn x) (List.ofFn h)).Nodup := by
  rw [points_eq_map]
  refine List.Nodup.map_on (fun j hj k hk heq => ?_) List.nodup_range
  rw [List.mem_range] at hj hk
  obtain ⟨m, hm⟩ := exists_digits_eq hj
  obtain ⟨m', hm'⟩ := exists_digits_eq hk
  have hpoints : t.gridPoint x h m = t.gridPoint x h m' := by
    rw [← coordinates_eq_gridPoint hm, ← coordinates_eq_gridPoint hm']
    exact heq
  have hdigits := (hm.trans (congrArg List.ofFn (gridPoint_injective hpos hpoints))).trans hm'.symm
  rw [← RowMajor.position_digits hj, ← RowMajor.position_digits hk,
    List.map_injective_iff.mpr Int.ofNat_injective hdigits]

/-! ## Sampling at the grid points -/

/-- **Layout of the grid points.** For a tensor stencil whose grid points can be counted, a point and positive
bandwidths, there is one grid point for each multi-index within the axes.  The one at the linear position of a
multi-index lies as many bandwidths above the lowest end of the grid along each axis as the index says; no two
of them are the same, and the point itself is at the position of the indices that lead to the offset zero.
After any history, a single worker calls a function that never fails once at each of them, in this order. -/
theorem gridPoints_layout [Memory] (t : Tensor) (hsize : t.size < RowMajor.sizeBound)
    (x h : Fin t.dimension → ℚ) (hpos : ∀ a, 0 < h a) :
    ∃ points : List (List ℚ),
      (∀ f strategy crew, MultivariateEvaluator.gridPoints ⟨f, t, strategy, crew⟩
        (Argument.ofReals (List.ofFn x)) (Argument.ofReals (List.ofFn h)) = .ok points) ∧
      points.length = t.lengths.prod ∧
      (∀ l < points.length, ∃! m, (t.positionOf m : Except (Fault ℚ) _) = .ok (.int l)) ∧
      (∀ m (l : ℕ), (t.positionOf m : Except (Fault ℚ) _) = .ok (.int l) →
        points[l]? = some (t.gridPoint x h m)) ∧
      points.Nodup ∧
      (∃ l : ℕ, (t.positionOf fun a => -(t.axisOf a).left : Except (Fault ℚ) _) = .ok (.int l) ∧
        points[l]? = some (List.ofFn x)) ∧
      ∀ (history : List (Operation ℚ)) (value : Point ℚ → Sample ℚ) strategy machine,
        ((MultivariateEvaluator.valueWithBandwidth
            ⟨.rule fun p => .ok (value p), t, strategy, ⟨.int 1, machine⟩⟩
            (Argument.ofReals (List.ofFn x)) (Argument.ofReals (List.ofFn h))).perform
            (Session.after history)).2.calls
          = (Session.after history).calls ++ points.map Point.vector := by
  have hlist : ∀ b ∈ List.ofFn h, 0 < b := by
    intro b hb
    obtain ⟨a, rfl⟩ := (List.mem_ofFn' h b).mp hb
    exact hpos a
  obtain ⟨ps, hps⟩ := Exact.exists_positives hlist
  have hdimension : ps.length = t.dimension := by
    rw [← List.length_map (f := (·.val)), hps, List.length_ofFn]
  have hlength : (List.ofFn x).length = t.dimension := List.length_ofFn
  have hfound := gridPoints_eq hlength hdimension
  rw [if_pos hsize, hps] at hfound
  refine ⟨points t (List.ofFn x) (List.ofFn h), fun _ _ _ => hfound, ?_, fun l hl => ?_,
    fun m l hm => getElem?_points_of_positionOf hm, nodup_points hpos, ?_, ?_⟩
  · rw [length_points, Tensor.size, RowMajor.size_eq_prod]
  · rw [length_points] at hl
    exact existsUnique_positionOf hl
  · have hposition := RowMajor.ravel_of_within (α := ℚ) t.lengths_ne_nil t.lengths_pos (within_neg_left t)
    obtain ⟨l, hl⟩ := Int.eq_ofNat_of_zero_le (RowMajor.linearPosition_mem_Ico (within_neg_left t)).1
    rw [hl] at hposition
    refine ⟨l, hposition, ?_⟩
    rw [getElem?_points_of_positionOf hposition, gridPoint_neg_left]
  · intro history value strategy machine
    have hplaces : places t (Argument.ofReals (List.ofFn x)) (Argument.ofReals (List.ofFn h))
        = .ok ((points t (List.ofFn x) (List.ofFn h)).map Point.vector) := map_eq_ok.mpr ⟨_, hfound, rfl⟩
    let crew : Crew ℚ := ⟨.int 1, machine⟩
    have hworkers : Workers.available crew.machine crew.request = .ok 1 := rfl
    have hyields := yields_valueWith_rule (fun p => .ok (value p)) hworkers t
      (Argument.ofReals (List.ofFn x)) (Argument.ofReals (List.ofFn h))
    rw [hplaces, Sampling.callsOf_of_forall_ok 1 fun p _ => ⟨value p, rfl⟩] at hyields
    exact (hyields _ (Session.sound_after history)).2.1

omit [FractionalPower] in
/-- Two points behind along one axis and three points around along the other: the last grid point, and the point
itself right before it. -/
theorem gridPoints_backwardCentral :
    letI : FractionalPower := ⟨fun _ _ => 0⟩
    Coefficients.backwardCentral.size < RowMajor.sizeBound ∧
      (∀ a, (0 : ℚ) < (![1 / 2, 1 / 4] : Fin 2 → ℚ) a) ∧
      ∃ points : List (List ℚ),
        (∀ f strategy crew, MultivariateEvaluator.gridPoints ⟨f, Coefficients.backwardCentral, strategy, crew⟩
          (Argument.ofReals [3, 5]) (Argument.ofReals [1 / 2, 1 / 4]) = .ok points) ∧
        points.length = 6 ∧ points[4]? = some [3, 5] ∧ points[5]? = some [3, 21 / 4] := by
  let : Memory := .ample
  let : FractionalPower := ⟨fun _ _ => 0⟩
  have hsize : Coefficients.backwardCentral.size < RowMajor.sizeBound := by decide
  have hpos : ∀ a, (0 : ℚ) < (![1 / 2, 1 / 4] : Fin 2 → ℚ) a := by
    intro a
    fin_cases a <;> norm_num
  obtain ⟨points, hfound, hlength, -, hentries, -, ⟨l, hl, hpoint⟩, -⟩ :=
    gridPoints_layout Coefficients.backwardCentral hsize ![3, 5] ![1 / 2, 1 / 4] hpos
  refine ⟨hsize, hpos, points, hfound, hlength, ?_, ?_⟩
  · have hposition : l = 4 := by
      cases hl
      rfl
    rw [← hposition]
    exact hpoint
  · rw [hentries ![1, 2] 5 rfl]
    show some [(3 : ℚ) + 1 / 2 * ((-1 : ℤ) + (1 : ℤ)), 5 + 1 / 4 * ((-1 : ℤ) + (2 : ℤ))] = _
    norm_num

end Multivariate

end FiniteDifference
