import FiniteDifference.Argument.Number
import Mathlib.Data.List.Basic

/-!
# Extents of lists

The elements of a list that have at most one axis each are stacked along a further axis if their extents are
one and the same, and are uneven otherwise.  Elements that are no lists are the leaves of the list.
-/

namespace FiniteDifference

variable {α : Type}

/-! ## Common extents -/

namespace Extent

/-- **Flat extents** are even and have at most one axis. -/
structure IsFlat (e : Extent) : Prop where
  even : e.uneven = false
  axes : e.shape.length ≤ 1

theorem isFlat_nil : IsFlat ⟨[], false⟩ := ⟨rfl, Nat.zero_le 1⟩

/-- Flat extents either agree or have nothing in common. -/
theorem join_of_flat {a b : Extent} (ha : a.IsFlat) (hb : b.IsFlat) :
    join a b = if b = a then a else ⟨[], true⟩ := by
  obtain ⟨s, u⟩ := a
  obtain ⟨t, v⟩ := b
  obtain ⟨rfl, hs⟩ := ha
  obtain ⟨rfl, ht⟩ := hb
  match s, t, hs, ht with
  | [], [], _, _ => rfl
  | [], [n], _, _ => rfl
  | [m], [], _, _ => rfl
  | [m], [n], _, _ =>
    by_cases h : m = n
    · simp [join, agreement, h]
    · simp [join, agreement, h, Ne.symm h]

/-- What is uneven from the first axis on stays so. -/
theorem join_uneven (a : Extent) : join a ⟨[], true⟩ = ⟨[], true⟩ := by
  obtain ⟨s, u⟩ := a
  cases s <;> simp [join, agreement]

end Extent

namespace Argument

/-- **Stacking.** Elements with at most one axis have a common extent if all of them have that of the first
one; otherwise they are uneven from the first axis on. -/
theorem commonExtentWithin_of_flat {axes : ℕ} {a : Argument α} {items : List (Argument α)}
    (h : ∀ b ∈ a :: items, (extentWithin axes b).IsFlat) :
    commonExtentWithin axes (a :: items)
      = some (if ∀ b ∈ items, extentWithin axes b = extentWithin axes a then extentWithin axes a
          else ⟨[], true⟩) := by
  induction items generalizing a with
  | nil => rfl
  | cons b items ih =>
    obtain ⟨ha, hitems⟩ := List.forall_mem_cons.mp h
    have hb := hitems b List.mem_cons_self
    rw [commonExtentWithin, ih hitems]
    show some (Extent.join _ (ite _ _ _)) = _
    by_cases hrest : ∀ c ∈ items, extentWithin axes c = extentWithin axes b
    · rw [if_pos hrest, Extent.join_of_flat ha hb]
      by_cases hab : extentWithin axes b = extentWithin axes a
      · have hall : ∀ c ∈ b :: items, extentWithin axes c = extentWithin axes a :=
          List.forall_mem_cons.mpr ⟨hab, fun c hc => (hrest c hc).trans hab⟩
        rw [if_pos hab, if_pos hall]
      · rw [if_neg hab, if_neg fun hall => hab (hall b List.mem_cons_self)]
    · rw [if_neg hrest, Extent.join_uneven, if_neg]
      intro hall
      obtain ⟨hab, hall⟩ := List.forall_mem_cons.mp hall
      exact hrest fun c hc => (hall c hc).trans hab.symm

/-- Elements of one extent have it in common. -/
theorem commonExtentWithin_of_forall_eq {axes : ℕ} {e : Extent} (he : e.IsFlat)
    {items : List (Argument α)} (hne : items ≠ []) (h : ∀ a ∈ items, extentWithin axes a = e) :
    commonExtentWithin axes items = some e := by
  obtain ⟨a, items, rfl⟩ := List.exists_cons_of_ne_nil hne
  obtain ⟨ha, hitems⟩ := List.forall_mem_cons.mp h
  rw [commonExtentWithin_of_flat fun b hb => (h b hb).symm ▸ he, ha, if_pos hitems]

/-- Elements of two extents have none. -/
theorem commonExtentWithin_of_ne {axes : ℕ} {items : List (Argument α)}
    (h : ∀ a ∈ items, (extentWithin axes a).IsFlat)
    {a b : Argument α} (ha : a ∈ items) (hb : b ∈ items) (hne : extentWithin axes a ≠ extentWithin axes b) :
    commonExtentWithin axes items = some ⟨[], true⟩ := by
  obtain ⟨c, items, rfl⟩ := List.exists_cons_of_ne_nil (List.ne_nil_of_mem ha)
  rw [commonExtentWithin_of_flat h, if_neg]
  intro hall
  have hfirst : ∀ d ∈ c :: items, extentWithin axes d = extentWithin axes c :=
    List.forall_mem_cons.mpr ⟨rfl, hall⟩
  exact hne ((hfirst a ha).trans (hfirst b hb).symm)

/-- The extent of a list of elements with a common one. -/
theorem extentWithin_list {axes : ℕ} {items : List (Argument α)} {e : Extent}
    (h : commonExtentWithin axes items = some e) :
    extentWithin (axes + 1) (.list items) = ⟨items.length :: e.shape, e.uneven⟩ := by
  rw [extentWithin, h]

/-- It is the same for any number of axes that are left. -/
theorem extent_list {items : List (Argument α)} {e : Extent}
    (h : ∀ axes, commonExtentWithin (axes + 1) items = some e) :
    (Argument.list items).extent = ⟨items.length :: e.shape, e.uneven⟩ :=
  extentWithin_list (h 62)

/-! ## Leaves -/

/-- Elements that are no lists are their own leaves. -/
theorem leavesOfAll_eq_self {items : List (Argument α)} (h : ∀ a ∈ items, a.leaves = [a]) :
    leavesOfAll items = items := by
  induction items with
  | nil => rfl
  | cons a items ih =>
    obtain ⟨ha, hitems⟩ := List.forall_mem_cons.mp h
    rw [leavesOfAll, ha, ih hitems]
    rfl

end Argument

end FiniteDifference
