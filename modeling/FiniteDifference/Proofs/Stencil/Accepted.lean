import FiniteDifference.Proofs.Coefficients.Solvable
import FiniteDifference.Proofs.Outcomes
import FiniteDifference.Proofs.Stencil.Mirror
import FiniteDifference.Stencil.Listing

/-!
# Accepted stencils

A stencil is built from a placement and two whole numbers if and only if these are accepted, and then it is made
of them.  Its grid is an interval of integers around zero, which tells on which side of the point it lies; so a
stencil with a derivative is determined by its order and its grid.
-/

namespace FiniteDifference

variable {α : Type}

/-! ## Building stencils -/

/-- Whole numbers only pass the check. -/
theorem Validation.requireInteger_eq_ok_iff {a : Argument α} {name : String} {i : ℤ} :
    requireInteger a name = .ok i ↔ a = .int i := by
  cases a with
  | int j =>
    constructor
    · rintro ⟨⟩
      rfl
    · rintro ⟨⟩
      rfl
  | _ => exact ⟨nofun, nofun⟩

namespace Stencil

/-- A stencil is its placement and its two orders. -/
theorem eq_of_fields {s t : Stencil} (hplacement : s.placement = t.placement) (horder : s.order = t.order)
    (haccuracy : s.accuracy = t.accuracy) : s = t := by
  obtain ⟨p, d, n, haccepted⟩ := s
  obtain rfl : p = t.placement := hplacement
  obtain rfl : d = t.order := horder
  obtain rfl : n = t.accuracy := haccuracy
  rfl

/-- Whole numbers make a stencil if they are its orders. -/
theorem ofOrders_eq_ok_iff {placement : Placement} {order accuracy : ℤ} {s : Stencil} :
    (ofOrders placement order accuracy : Except (Fault α) Stencil) = .ok s ↔
      placement = s.placement ∧ order = s.order ∧ accuracy = s.accuracy := by
  constructor
  · intro h
    rw [ofOrders] at h
    split at h
    · cases h
    split at h
    · cases h
    split at h
    · cases h
    split at h
    · cases h
    split at h
    · cases h
      exact ⟨rfl, by dsimp only; omega, by dsimp only; omega⟩
    · cases h
  · rintro ⟨rfl, rfl, rfl⟩
    exact ofOrders_natCast s.accepted

/-- **Building a stencil.** Arguments make a stencil if they are its placement and its orders. -/
theorem ofArguments_eq_ok_iff {placement : GivenPlacement α} {order accuracy : Argument α} {s : Stencil} :
    ofArguments placement order accuracy = .ok s ↔
      placement = .placement s.placement ∧ order = .int s.order ∧ accuracy = .int s.accuracy := by
  cases placement with
  | other given => exact ⟨nofun, nofun⟩
  | placement p =>
    show (Validation.requireInteger order _ >>= fun d => Validation.requireInteger accuracy _ >>= fun n =>
      ofOrders p d n) = _ ↔ _
    simp only [bind_eq_ok, Validation.requireInteger_eq_ok_iff, ofOrders_eq_ok_iff]
    constructor
    · rintro ⟨d, rfl, n, rfl, rfl, rfl, rfl⟩
      exact ⟨rfl, rfl, rfl⟩
    · rintro ⟨hp, hd, hn⟩
      cases hp
      exact ⟨_, hd, _, hn, rfl, rfl, rfl⟩

/-- **Accepted arguments.** They are a placement and two whole numbers, either both zero or both positive, of
which the second is even for a grid around the point. -/
theorem exists_ofArguments_iff (placement : GivenPlacement α) (order accuracy : Argument α) :
    (∃ s, ofArguments placement order accuracy = .ok s) ↔
      ∃ (p : Placement) (d n : ℤ), placement = .placement p ∧ order = .int d ∧ accuracy = .int n ∧
        (d = 0 ∧ n = 0 ∨ 0 < d ∧ 0 < n ∧ (p = .central → n % 2 = 0)) := by
  simp only [ofArguments_eq_ok_iff]
  constructor
  · rintro ⟨⟨p, d, n, haccepted⟩, rfl, rfl, rfl⟩
    refine ⟨p, d, n, rfl, rfl, rfl, ?_⟩
    rcases haccepted with ⟨rfl, rfl⟩ | ⟨hd, hn, heven⟩
    · exact .inl ⟨rfl, rfl⟩
    · exact .inr ⟨Int.natCast_pos.mpr hd, Int.natCast_pos.mpr hn, fun hp => by have := heven hp; omega⟩
  · rintro ⟨p, d, n, rfl, rfl, rfl, haccepted⟩
    rcases haccepted with ⟨rfl, rfl⟩ | ⟨hd, hn, heven⟩
    · exact ⟨⟨p, 0, 0, .inl ⟨rfl, rfl⟩⟩, rfl, rfl, rfl⟩
    · lift d to ℕ using hd.le
      lift n to ℕ using hn.le
      have heven' : p = .central → n % 2 = 0 := fun hp => by have := heven hp; omega
      exact ⟨⟨p, d, n, .inr ⟨Int.natCast_pos.mp hd, Int.natCast_pos.mp hn, heven'⟩⟩, rfl, rfl, rfl⟩

/-! ## Grids -/

/-- The number of points in terms of the two orders. -/
theorem length_eq_ite (s : Stencil) :
    s.length = if s.order = 0 then 1
      else if s.placement = .central ∧ s.order % 2 = 0 then s.order + s.accuracy - 1
      else s.order + s.accuracy := by
  by_cases hzero : s.order = 0
  · rw [if_pos hzero, s.length_of_order_eq_zero hzero]
  · have hpos : 0 < s.order := Nat.pos_of_ne_zero hzero
    rw [if_neg hzero]
    by_cases heven : s.placement = .central ∧ s.order % 2 = 0
    · rw [if_pos heven, ← s.length_of_central_even hpos heven.1 heven.2, Nat.add_sub_cancel]
    · rw [if_neg heven]
      exact (s.length_eq_or hpos).resolve_right fun h => heven ⟨h.1, h.2.1⟩

/-- **Contiguous grids.** A list that holds the integers from one end of the grid to the other, one after the
other. -/
structure IsGrid (s : Stencil) (grid : List ℤ) : Prop where
  size : grid.length = s.length
  entry : ∀ (i : ℕ) (hi : i < grid.length), grid[i] = s.left + i
  mem_iff : ∀ o, o ∈ grid ↔ s.left ≤ o ∧ o ≤ s.right
  zero_mem : 0 ∈ grid

/-- The offsets of a stencil are its grid. -/
theorem isGrid_offsets (s : Stencil) : s.IsGrid s.offsets where
  size := s.length_offsets
  entry i hi := by simp [offsets]
  mem_iff := s.mem_offsets
  zero_mem := s.zero_mem_offsets

/-- The grid around the point is symmetric. -/
theorem offsets_of_central {s : Stencil} (h : s.placement = .central) :
    s.offsets = (s.offsets.map (- ·)).reverse := by
  have hmirror := s.offsets_mirror
  rwa [mirror_of_central h] at hmirror

/-- The grid behind the point is that ahead of it, negated and reversed. -/
theorem offsets_of_backward {s t : Stencil} (hs : s.placement = .forward) (ht : t.placement = .backward)
    (horder : t.order = s.order) (haccuracy : t.accuracy = s.accuracy) :
    t.offsets = (s.offsets.map (- ·)).reverse := by
  have hmirror : t = s.mirror := by
    refine eq_of_fields ?_ horder haccuracy
    show t.placement = s.placement.mirror
    rw [hs, ht]
    rfl
  rw [hmirror, offsets_mirror]

/-! ## Grids determine stencils -/

/-- Equal grids have the same ends. -/
theorem ends_eq_of_offsets_eq {s t : Stencil} (h : s.offsets = t.offsets) :
    s.behind = t.behind ∧ s.ahead = t.ahead := by
  have hmem : ∀ o : ℤ, (s.left ≤ o ∧ o ≤ s.right) ↔ (t.left ≤ o ∧ o ≤ t.right) := fun o => by
    rw [← mem_offsets, ← mem_offsets, h]
  have hleft := hmem s.left
  have hleft' := hmem t.left
  have hright := hmem s.right
  have hright' := hmem t.right
  simp only [left, right] at *
  omega

/-- The grid of a stencil with a derivative tells on which side of the point it lies. -/
theorem placement_eq_ite (s : Stencil) (hpos : 0 < s.order) :
    s.placement = if s.behind = 0 then .forward else if s.ahead = 0 then .backward else .central := by
  have hacc := s.accuracy_pos hpos
  rcases hp : s.placement
  · have hbehind : s.behind = 0 := by simp only [behind, hp]
    rw [if_pos hbehind]
  · have hbehind : s.behind ≠ 0 := by
      simp only [behind, span, hp]
      omega
    have hahead : s.ahead = 0 := by simp only [ahead, hp]
    rw [if_neg hbehind, if_pos hahead]
  · -- the accuracy is even and positive, so there are points on either side
    have heven := s.accuracy_even hp
    have hbehind : s.behind ≠ 0 := by
      simp only [behind, span, hp]
      omega
    have hahead : s.ahead ≠ 0 := by
      simp only [ahead, span, hp]
      omega
    rw [if_neg hbehind, if_neg hahead]

/-- **Grids determine stencils.** Two stencils for one derivative with the same grid are equal. -/
theorem eq_of_offsets_eq {s t : Stencil} (hpos : 0 < s.order) (horder : s.order = t.order)
    (h : s.offsets = t.offsets) : s = t := by
  obtain ⟨hbehind, hahead⟩ := ends_eq_of_offsets_eq h
  have hplacement : s.placement = t.placement := by
    rw [s.placement_eq_ite hpos, t.placement_eq_ite (horder ▸ hpos), hbehind, hahead]
  have hlength : s.length = t.length := by rw [length, length, hbehind, hahead]
  have haccuracy := s.accuracy_pos hpos
  have haccuracy' := t.accuracy_pos (horder ▸ hpos)
  refine eq_of_fields hplacement horder ?_
  rw [s.length_eq_ite, t.length_eq_ite, hplacement, horder] at hlength
  split_ifs at hlength <;> omega

/-! ## Listed grids -/

/-- **What holds of every grid.** It has more points than the order of the derivative, as many as the two orders
tell.  Unless there are too many, its offsets are listed: the integers from one end to the other, symmetric around
the point, and behind it those ahead of it, negated and reversed. -/
structure GridInvariant [Memory] (α : Type) (s : Stencil) : Prop where
  order_lt : s.order < s.length
  length_eq : s.length = if s.order = 0 then 1
    else if s.placement = .central ∧ s.order % 2 = 0 then s.order + s.accuracy - 1
    else s.order + s.accuracy
  counted : s.length < RowMajor.sizeBound →
    s.listedOffsets (α := α) = .ok s.offsets ∨ s.listedOffsets (α := α) = .error .noRoom
  uncounted : RowMajor.sizeBound ≤ s.length → s.listedOffsets (α := α) = .error (.tooLarge .list)
  contiguous : ∀ grid, s.listedOffsets (α := α) = .ok grid → s.IsGrid grid
  symmetric : s.placement = .central → ∀ grid, s.listedOffsets (α := α) = .ok grid →
    grid = (grid.map (- ·)).reverse
  mirrored : s.placement = .backward → ∀ grid, s.listedOffsets (α := α) = .ok grid →
    ∀ t : Stencil, t.placement = .forward → t.order = s.order → t.accuracy = s.accuracy →
      ∃ ahead, t.listedOffsets (α := α) = .ok ahead ∧ grid = (ahead.map (- ·)).reverse

variable [Memory]

/-- It holds of every stencil. -/
theorem gridInvariant (s : Stencil) : s.GridInvariant α where
  order_lt := s.order_lt_length
  length_eq := s.length_eq_ite
  counted hcounted := by
    rw [listedOffsets, if_neg hcounted.not_ge]
    by_cases hroom : Memory.room ≤ s.length
    · exact .inr (if_pos hroom)
    · exact .inl (if_neg hroom)
  uncounted huncounted := if_pos huncounted
  contiguous grid hgrid := by
    obtain ⟨-, rfl⟩ := (s.listedOffsets_eq_ok_iff grid).mp hgrid
    exact s.isGrid_offsets
  symmetric hcentral grid hgrid := by
    obtain ⟨-, rfl⟩ := (s.listedOffsets_eq_ok_iff grid).mp hgrid
    exact offsets_of_central hcentral
  mirrored hbackward grid hgrid t hforward horder haccuracy := by
    obtain ⟨hroom, rfl⟩ := (s.listedOffsets_eq_ok_iff grid).mp hgrid
    have hback := offsets_of_backward hforward hbackward horder.symm haccuracy.symm
    have hlength : t.length = s.length := by
      rw [← t.length_offsets, ← s.length_offsets, hback, List.length_reverse, List.length_map]
    exact ⟨t.offsets, (t.listedOffsets_eq_ok_iff t.offsets).mpr ⟨hlength ▸ hroom, rfl⟩, hback⟩

/-- **Grids of accepted stencils.** Arguments make a stencil if and only if they are a placement and two whole
numbers, either both zero or both positive, of which the second is even around the point; the stencil is made of
them, and the invariant holds of its grid.  No two stencils for one derivative have the same offsets. -/
theorem ofArguments_grids :
    (∀ (placement : GivenPlacement α) (order accuracy : Argument α),
      ((∃ s, ofArguments placement order accuracy = .ok s) ↔
        ∃ (p : Placement) (d n : ℤ), placement = .placement p ∧ order = .int d ∧ accuracy = .int n ∧
          (d = 0 ∧ n = 0 ∨ 0 < d ∧ 0 < n ∧ (p = .central → n % 2 = 0))) ∧
      ∀ s, ofArguments placement order accuracy = .ok s ↔
        placement = .placement s.placement ∧ order = .int s.order ∧ accuracy = .int s.accuracy) ∧
    (∀ s : Stencil, s.GridInvariant α) ∧
    ∀ s t : Stencil, 0 < s.order → s.order = t.order → s.offsets = t.offsets → s = t :=
  ⟨fun placement order accuracy =>
      ⟨exists_ofArguments_iff placement order accuracy, fun _ => ofArguments_eq_ok_iff⟩,
    gridInvariant, fun _ _ => eq_of_offsets_eq⟩

omit [Memory] in
/-- The five points around the point and the two points on either side of it. -/
theorem grids_fivePoint_twoPoint :
    letI : Memory := .ample
    (∃ s, ofArguments (.placement .central) (.int 1) (.int 4 : Argument Float) = .ok s) ∧
      fivePointCentral.IsGrid [-2, -1, 0, 1, 2] ∧
      [-2, -1, 0, 1, 2] = ([-2, -1, 0, 1, 2].map (- ·) : List ℤ).reverse ∧
      (∃ ahead, (twoPointForward.listedOffsets : Except (Fault Float) (List ℤ)) = .ok ahead ∧
        [-1, 0] = (ahead.map (- ·)).reverse) ∧
      twoPointForward.offsets ≠ twoPointBackward.offsets := by
  let : Memory := .ample
  obtain ⟨haccepted, hgrids, hdetermined⟩ := ofArguments_grids (α := Float)
  have hfive : (fivePointCentral.listedOffsets : Except (Fault Float) (List ℤ)) = .ok [-2, -1, 0, 1, 2] :=
    rfl
  have htwo : (twoPointBackward.listedOffsets : Except (Fault Float) (List ℤ)) = .ok [-1, 0] := rfl
  refine ⟨((haccepted _ _ _).1).mpr ⟨.central, 1, 4, rfl, rfl, rfl, by decide⟩,
    (hgrids fivePointCentral).contiguous _ hfive, (hgrids fivePointCentral).symmetric rfl _ hfive,
    (hgrids twoPointBackward).mirrored rfl _ htwo twoPointForward rfl rfl rfl, fun heq => ?_⟩
  exact absurd (hdetermined twoPointForward twoPointBackward (by decide) rfl heq) (by decide)

omit [Memory] in
/-- **Beyond the bound.** A stencil whose grid points cannot be counted is accepted, but has no list of them. -/
theorem not_listed_on_uncountedForward :
    letI : Memory := .ample
    ¬∀ (placement : GivenPlacement Float) (order accuracy : Argument Float) (s : Stencil),
      ofArguments placement order accuracy = .ok s →
        ∃ grid, (s.listedOffsets : Except (Fault Float) (List ℤ)) = .ok grid ∧ s.IsGrid grid := by
  let : Memory := .ample
  intro hall
  obtain ⟨grid, hgrid, -⟩ := hall (.placement .forward) (.int 1) (.int 0x8000000000000000) uncountedForward
    (ofArguments_eq_ok_iff.mpr ⟨rfl, rfl, rfl⟩)
  rw [listedOffsets_of_uncounted not_counted_uncountedForward] at hgrid
  cases hgrid

end Stencil

end FiniteDifference
