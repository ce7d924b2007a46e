import FiniteDifference.Proofs.Cache.Tally

/-!
# Balanced tallies

Every miss is reported once and leads to an entry, unless the stencil is not solvable.  Inside the lookup
of a tensor stencil the books are not yet closed: its miss is counted before its axes are looked up, and its
entry is stored after them.  The invariant therefore speaks of the pending stencils as well.
-/

namespace FiniteDifference.Tally

variable [Memory]

/-- **Balanced tallies.** The solvable stencils among the reported ones are the pending and the stored
ones, each of them stored once, together with its axes. -/
structure Balanced (pending : Multiset Descriptor) (t : Tally) : Prop where
  axes : ∀ d ∈ t.stored, ∀ s ∈ d.axes, .axis s ∈ t.stored
  rounded : ∀ d ∈ t.rounded, d ∈ t.stored
  misses : t.misses = t.noted.card
  noted : t.noted.filter Descriptor.Solvable = pending + t.stored
  nodup : t.stored.Nodup

/-- A stencil that is looked up is pending if it is solvable. -/
def pendingOf (d : Descriptor) : Multiset Descriptor := if d.Solvable then {d} else 0

namespace Balanced

variable {pending : Multiset Descriptor} {t : Tally} {d : Descriptor} {generate : Tally → Tally}

/-- The empty tally. -/
theorem empty : Balanced 0 ⟨0, 0, 0, 0, 0⟩ where
  axes := by simp
  rounded := by simp
  misses := rfl
  noted := rfl
  nodup := Multiset.nodup_zero

theorem hit (h : Balanced pending t) : Balanced pending t.hit :=
  ⟨h.axes, h.rounded, h.misses, h.noted, h.nodup⟩

/-- Counting a miss makes a solvable stencil pending. -/
theorem miss (h : Balanced pending t) (d : Descriptor) :
    Balanced (pendingOf d + pending) (t.miss d) where
  axes := h.axes
  rounded := h.rounded
  misses := by
    show t.misses + 1 = (d ::ₘ t.noted).card
    rw [Multiset.card_cons, h.misses]
  noted := by
    show (d ::ₘ t.noted).filter Descriptor.Solvable = _ + t.stored
    rw [Multiset.filter_cons, h.noted, ← add_assoc]
    rfl
  nodup := h.nodup

/-- Storing a pending stencil, whose axes are stored already. -/
theorem store (h : Balanced (pendingOf d + pending) t) (hnew : d ∉ t.stored)
    (haxes : d.Solvable → ∀ s ∈ d.axes, .axis s = d ∨ .axis s ∈ t.stored) :
    Balanced pending (t.store d) := by
  by_cases hd : d.Solvable
  · have hstored : (t.store d).stored = d ::ₘ t.stored := by
      rw [Tally.store, insertSolvable, if_pos hd, Multiset.ndinsert_of_notMem hnew]
    have hnoted := h.noted
    rw [pendingOf, if_pos hd] at hnoted
    refine ⟨?_, ?_, h.misses, ?_, ?_⟩
    · rw [hstored]
      intro e he s hs
      rcases Multiset.mem_cons.mp he with rfl | he
      · exact Multiset.mem_cons.mpr (haxes hd s hs)
      · exact Multiset.mem_cons_of_mem (h.axes e he s hs)
    · rw [hstored]
      intro e he
      exact Multiset.mem_cons_of_mem (h.rounded e he)
    · rw [hstored]
      refine hnoted.trans ?_
      rw [add_comm ({d} : Multiset Descriptor), add_assoc, Multiset.singleton_add]
    · rw [hstored]
      exact Multiset.nodup_cons.mpr ⟨hnew, h.nodup⟩
  · rw [pendingOf, if_neg hd, zero_add] at h
    rwa [store_of_not_solvable hd]

/-- **Exact lookups.** They keep the balance if the generation does, does not store the stencil itself
and stores its other axes. -/
theorem lookup (h : Balanced pending t)
    (hgenerate : ∀ {pending t}, Balanced pending t → Balanced pending (generate t))
    (hapart : Apart d generate)
    (haxes : d.Solvable → ∀ t, ∀ s ∈ d.axes, .axis s = d ∨ .axis s ∈ (generate t).stored) :
    Balanced pending (t.lookup d generate) := by
  unfold Tally.lookup
  split
  · exact h.hit
  · next hnew =>
    have hnew' : d ∉ (generate (t.miss d)).stored := mt (hapart.stored _).mp hnew
    exact (hgenerate (h.miss d)).store hnew' fun hd => haxes hd _

theorem axis (h : Balanced pending t) (s : Stencil) : Balanced pending (t.axis s) :=
  h.lookup (fun h => h) (Apart.id _) fun _ _ s' hs' => .inl (by rw [List.mem_singleton.mp hs'])

/-- Lookups for a list of stencils. -/
theorem axesAll (h : Balanced pending t) (stencils : List Stencil) :
    Balanced pending (t.axes stencils) := by
  unfold Tally.axes
  induction stencils generalizing t with
  | nil => exact h
  | cons s stencils ih => exact ih (h.axis s)

/-- A lookup for a tensor stencil. -/
theorem tensor (h : Balanced pending t) (T : Tensor) : Balanced pending (t.tensor T) := by
  refine h.lookup (fun h => h.axesAll _) (apart_axes T _) fun hT t s hs => .inr ?_
  -- all axes of a solvable tensor stencil are visited, and all are solvable
  have hvisited : visitedAxes T.axes = T.axes := visitedAxes_of_solvable fun s hs => hT.axis hs
  rw [hvisited]
  exact (mem_stored_axes t).mpr (.inr ⟨s, hs, rfl, hT.axis hs⟩)

theorem exact (h : Balanced pending t) (d : Descriptor) : Balanced pending (t.exact d) := by
  cases d with
  | axis s => exact h.axis s
  | tensor T => exact h.tensor T

end Balanced

/-- What is looked up is stored if it is solvable. -/
theorem mem_stored_lookup {d : Descriptor} (hd : d.Solvable) (generate : Tally → Tally) (t : Tally) :
    d ∈ (t.lookup d generate).stored := by
  unfold lookup
  split
  · next h => exact h
  · exact mem_insertSolvable.mpr (.inr ⟨rfl, hd⟩)

/-- So it is after an exact lookup for a stencil of either kind. -/
theorem mem_stored_exact {d : Descriptor} (hd : d.Solvable) (t : Tally) : d ∈ (t.exact d).stored := by
  cases d with
  | axis s => exact mem_stored_lookup hd _ t
  | tensor T => exact mem_stored_lookup hd _ t

namespace Balanced

variable {pending : Multiset Descriptor} {t : Tally}

/-- A lookup of scalars, which are stored behind the exact coefficients. -/
theorem scalars (h : Balanced pending t) (d : Descriptor) : Balanced pending (t.scalars d) := by
  unfold Tally.scalars
  split
  · exact h
  · have hexact := h.exact d
    refine ⟨hexact.axes, fun e he => ?_, hexact.misses, hexact.noted, hexact.nodup⟩
    rcases mem_insertSolvable.mp he with he | ⟨rfl, hd⟩
    · exact hexact.rounded e he
    · exact mem_stored_exact hd t

/-- **Balance step.** Every lookup keeps the balance. -/
theorem enter (h : Balanced pending t) (lookup : Lookup) : Balanced pending (t.enter lookup) := by
  cases lookup with
  | exact d => exact h.exact d
  | scalars d => exact h.scalars d

/-- **Balance of runs.** Lookups one after the other keep the balance. -/
theorem enterAll (h : Balanced pending t) (lookups : List Lookup) :
    Balanced pending (Tally.enterAll lookups t) := by
  unfold Tally.enterAll
  induction lookups generalizing t with
  | nil => exact h
  | cons lookup lookups ih => exact ih (h.enter lookup)

end Balanced

/-! ## Hits and misses -/

/-- Lookups for stencils do not lower the number of misses. -/
theorem misses_le_axes (stencils : List Stencil) (t : Tally) :
    t.misses ≤ (t.axes stencils).misses := by
  unfold axes
  induction stencils generalizing t with
  | nil => exact le_rfl
  | cons s stencils ih =>
    have hs : t.misses ≤ (t.axis s).misses := by
      unfold axis lookup
      split
      · exact le_rfl
      · exact Nat.le_succ _
    exact hs.trans (ih _)

/-- **Hits.** An exact lookup is a hit and no miss if and only if the stencil is stored. -/
theorem mem_stored_iff (d : Descriptor) (t : Tally) :
    d ∈ t.stored ↔ (t.exact d).hits = t.hits + 1 ∧ (t.exact d).misses = t.misses := by
  have hlookup : ∀ generate : Tally → Tally, (∀ t, t.misses ≤ (generate t).misses) →
      (d ∈ t.stored ↔
        (t.lookup d generate).hits = t.hits + 1 ∧ (t.lookup d generate).misses = t.misses) := by
    intro generate hle
    unfold lookup
    split
    · next h => exact ⟨fun _ => ⟨rfl, rfl⟩, fun _ => h⟩
    · next h =>
      -- a miss of its own is counted before anything else
      have hmiss : t.misses + 1 ≤ (generate (t.miss d)).misses := hle (t.miss d)
      refine ⟨fun hmem => absurd hmem h, fun hsame => ?_⟩
      have hsame : (generate (t.miss d)).misses = t.misses := hsame.2
      omega
  cases d with
  | axis s => exact hlookup id fun _ => le_rfl
  | tensor T => exact hlookup _ (misses_le_axes _)

end FiniteDifference.Tally
