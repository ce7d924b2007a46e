import FiniteDifference.Fault.Basic

/-!
# Listing a grid

The offsets of a stencil are determined by its orders, however large these are.  A list of them is one
entry per grid point, which has its limits: the entries must be so few that they can be counted, and there
must be room for them.
-/

namespace FiniteDifference

/-- **Memory.** There is room for a list of fewer entries than a bound: for a single entry at least, and for no
more entries than can be counted. -/
class Memory where
  /-- The number of entries from which on there is no room for a list. -/
  room : Nat
  one_lt_room : 1 < room
  room_lt : room < RowMajor.sizeBound

/-- The memory with the most room. -/
@[reducible] def Memory.ample : Memory := ⟨RowMajor.sizeBound - 1, by decide, by decide⟩

namespace Stencil

variable [Memory] {α : Type}

/-- **Listed offsets.** The offsets of a stencil one by one: their number must be one that can be counted
and there must be room for them. -/
def listedOffsets (s : Stencil) : Except (Fault α) (List Int) :=
  if RowMajor.sizeBound ≤ s.length then .error (.tooLarge .list)
  else if Memory.room ≤ s.length then .error .noRoom
  else .ok s.offsets

/-- What is computed from a listed grid is there if and only if there is room for the list. -/
theorem map_listedOffsets {β : Type} (s : Stencil) (b : β) :
    (s.listedOffsets (α := α)).map (fun _ => b) =
      if s.length < Memory.room then .ok b
      else if s.length < RowMajor.sizeBound then .error .noRoom
      else .error (.tooLarge .list) := by
  have below := Memory.room_lt
  unfold listedOffsets
  by_cases uncounted : RowMajor.sizeBound ≤ s.length
  · rw [if_pos uncounted, if_neg (by omega), if_neg (by omega)]
    rfl
  · by_cases room : Memory.room ≤ s.length
    · rw [if_neg uncounted, if_pos room, if_neg (by omega), if_pos (by omega)]
      rfl
    · rw [if_neg uncounted, if_neg room, if_pos (by omega)]
      rfl

/-- A grid is listed if and only if there is room for it, and then by its offsets. -/
theorem listedOffsets_eq_ok_iff (s : Stencil) (offsets : List Int) :
    s.listedOffsets (α := α) = .ok offsets ↔ s.length < Memory.room ∧ s.offsets = offsets := by
  have below := Memory.room_lt
  unfold listedOffsets
  split
  · simp
    omega
  · split
    · simp
      omega
    · simp
      omega

theorem listedOffsets_of_uncounted {s : Stencil} (h : ¬s.length < RowMajor.sizeBound) :
    s.listedOffsets (α := α) = .error (.tooLarge .list) := if_pos (Nat.not_lt.mp h)

theorem not_lt_room_of_uncounted {s : Stencil} (h : ¬s.length < RowMajor.sizeBound) :
    ¬s.length < Memory.room :=
  fun hroom => h (Nat.lt_trans hroom Memory.room_lt)

end Stencil

end FiniteDifference
