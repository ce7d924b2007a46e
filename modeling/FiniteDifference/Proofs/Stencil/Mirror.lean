import FiniteDifference.Proofs.Stencil.Grid
import FiniteDifference.Stencil.Construction

/-!
# Mirror images of stencils

A stencil behind the point is the mirror image of one ahead of it, and a central stencil is its own mirror
image.  The grid of the mirror image is the negated and reversed grid.
-/

namespace FiniteDifference

/-! ## The other side of the point -/

/-- The placement on the other side of the point. -/
def Placement.mirror : Placement → Placement
  | .forward => .backward
  | .backward => .forward
  | .central => .central

/-- Both sides of the point accept the same orders. -/
theorem Placement.Accepts.mirror {placement : Placement} {order accuracy : ℕ}
    (h : placement.Accepts order accuracy) : placement.mirror.Accepts order accuracy := by
  rcases h with hzero | ⟨horder, haccuracy, heven⟩
  · exact .inl hzero
  · refine .inr ⟨horder, haccuracy, fun hcentral => heven ?_⟩
    cases placement with
    | forward => cases hcentral
    | backward => cases hcentral
    | central => rfl

namespace Stencil

/-- **Mirror images.** The stencil of the same orders on the other side of the point. -/
def mirror (s : Stencil) : Stencil :=
  ⟨s.placement.mirror, s.order, s.accuracy, s.accepted.mirror⟩

theorem mirror_of_central {s : Stencil} (h : s.placement = .central) : s.mirror = s := by
  obtain ⟨placement, order, accuracy, haccepted⟩ := s
  obtain rfl : placement = .central := h
  rfl

theorem behind_mirror (s : Stencil) : s.mirror.behind = s.ahead := by
  rcases hp : s.placement <;> simp [behind, ahead, mirror, Placement.mirror, span, hp]

theorem ahead_mirror (s : Stencil) : s.mirror.ahead = s.behind := by
  rcases hp : s.placement <;> simp [behind, ahead, mirror, Placement.mirror, span, hp]

theorem length_mirror (s : Stencil) : s.mirror.length = s.length := by
  rw [length, behind_mirror, ahead_mirror, length, Nat.add_comm s.ahead]

/-- The offsets of the mirror image are the opposite ones, in reverse order. -/
theorem offsets_mirror (s : Stencil) : s.mirror.offsets = (s.offsets.map (- ·)).reverse := by
  refine List.ext_getElem (by simp [length_mirror]) fun i hi hi' => ?_
  rw [length_offsets, length_mirror, length] at hi
  simp only [offsets, left, behind_mirror, List.getElem_map, List.getElem_range, List.getElem_reverse,
    List.length_map, List.length_range, length]
  omega

/-! ## Stencils from accepted orders -/

/-- Natural orders that a placement accepts make a stencil. -/
theorem ofOrders_natCast {α : Type} {placement : Placement} {order accuracy : ℕ}
    (h : placement.Accepts order accuracy) :
    (ofOrders placement order accuracy : Except (Fault α) Stencil)
      = .ok ⟨placement, order, accuracy, h⟩ := by
  have hcases := h
  unfold Placement.Accepts at hcases
  rw [ofOrders, if_neg (by omega), if_neg (by omega), if_neg (by omega), if_neg]
  · exact dif_pos h
  · rintro ⟨hcentral, hodd⟩
    rcases hcases with ⟨-, rfl⟩ | ⟨-, -, heven⟩
    · exact hodd rfl
    · have := heven hcentral
      omega

end Stencil

end FiniteDifference
