import FiniteDifference.Cache.Requests

/-!
# Sound caches

A cache is sound if every stored vector is the one that would be generated now.  Storing a generated
vector, counting a lookup and removing all entries keep a cache sound.
-/

namespace FiniteDifference

variable {α : Type}

/-- **Generated coefficients.** The exact coefficients of a stencil of either kind, or the fault of asking
for them, without a cache. -/
def Descriptor.generated [Memory] : Descriptor → Except (Fault α) (List Rat)
  | .axis s => Coefficients.ofStencil s
  | .tensor t => Coefficients.ofTensor (α := α) Coefficients.ofStencil t

namespace Cache

/-! ## Reading what was stored -/

/-- A lookup in a list with one more entry at the end. -/
theorem lookup_append_singleton {κ β : Type} [DecidableEq κ] (entries : List (κ × β)) (d e : κ)
    (v : β) :
    (entries ++ [(d, v)]).lookup e = (entries.lookup e).or (if e = d then some v else none) := by
  rw [List.lookup_append, List.lookup_cons, List.lookup_nil]
  by_cases h : e = d
  · simp [h]
  · simp [h, beq_eq_false_iff_ne.mpr h]

/-- Storing exact coefficients adds one entry, unless there is one for the same stencil. -/
theorem stored?_store (c : Cache α) (d e : Descriptor) (v : List Rat) :
    (c.store d v).stored? e = (c.stored? e).or (if e = d then some v else none) := by
  unfold store contains
  by_cases h : (c.stored? d).isSome
  · obtain ⟨w, hw⟩ := Option.isSome_iff_exists.mp h
    rw [if_pos h]
    by_cases he : e = d
    · rw [he, hw, Option.some_or]
    · rw [if_neg he, Option.or_none]
  · rw [if_neg h]
    cases d <;> cases e <;> simp [stored?, lookup_append_singleton]

/-- Storing exact coefficients leaves the scalar ones as they are. -/
@[simp] theorem scalars?_store (c : Cache α) (d e : Descriptor) (v : List Rat) :
    (c.store d v).scalars? e = c.scalars? e := by
  unfold store
  split
  · rfl
  · cases d <;> rfl

/-- Storing scalar coefficients adds one entry, unless there is one for the same stencil. -/
theorem scalars?_storeScalars (c : Cache α) (d e : Descriptor) (v : List α) :
    (c.storeScalars d v).scalars? e = (c.scalars? e).or (if e = d then some v else none) := by
  unfold storeScalars
  by_cases h : (c.scalars? d).isSome
  · obtain ⟨w, hw⟩ := Option.isSome_iff_exists.mp h
    rw [if_pos h]
    by_cases he : e = d
    · rw [he, hw, Option.some_or]
    · rw [if_neg he, Option.or_none]
  · rw [if_neg h]
    exact lookup_append_singleton c.scalars d e v

/-- Storing scalar coefficients leaves the exact ones as they are. -/
@[simp] theorem stored?_storeScalars (c : Cache α) (d e : Descriptor) (v : List α) :
    (c.storeScalars d v).stored? e = c.stored? e := by
  unfold storeScalars
  split
  · rfl
  · cases e <;> rfl

@[simp] theorem stored?_hit (c : Cache α) (d : Descriptor) : c.hit.stored? d = c.stored? d := by
  cases d <;> rfl

@[simp] theorem stored?_miss (c : Cache α) (d : Descriptor) : c.miss.stored? d = c.stored? d := by
  cases d <;> rfl

/-! ## Soundness -/

variable [Memory] [Scalar α]

/-- **Sound caches.** Stored exact coefficients are the generated ones, and stored scalar coefficients
are those nearest to the generated ones. -/
structure Sound (c : Cache α) : Prop where
  exact : ∀ d v, c.stored? d = some v → d.generated (α := α) = .ok v
  scalars : ∀ d v, c.scalars? d = some v →
    ∃ e, d.generated (α := α) = .ok e ∧ v = e.map Scalar.nearest

/-- The cache without entries is sound. -/
theorem sound_empty : (Cache.empty : Cache α).Sound where
  exact := by
    intro d v h
    cases d <;> simp [stored?, empty] at h
  scalars := by
    intro d v h
    simp [scalars?, empty] at h

namespace Sound

variable {c : Cache α}

theorem hit (h : c.Sound) : c.hit.Sound where
  exact := fun d v hv => h.exact d v (by rwa [stored?_hit] at hv)
  scalars := h.scalars

theorem miss (h : c.Sound) : c.miss.Sound where
  exact := fun d v hv => h.exact d v (by rwa [stored?_miss] at hv)
  scalars := h.scalars

/-- Storing generated coefficients keeps a cache sound. -/
theorem store (h : c.Sound) {d : Descriptor} {v : List Rat} (hd : d.generated (α := α) = .ok v) :
    (c.store d v).Sound where
  exact := by
    intro e w hw
    rw [stored?_store] at hw
    -- an entry that was there stays, and a new one was just generated
    rcases Option.or_eq_some_iff.mp hw with hold | ⟨-, hnew⟩
    · exact h.exact e w hold
    · split at hnew
      · next he => rw [he, hd, Option.some.inj hnew]
      · simp at hnew
  scalars := by
    intro e w hw
    rw [scalars?_store] at hw
    exact h.scalars e w hw

/-- Storing the scalars nearest to generated coefficients keeps a cache sound. -/
theorem storeScalars (h : c.Sound) {d : Descriptor} {v : List Rat}
    (hd : d.generated (α := α) = .ok v) : (c.storeScalars d (v.map Scalar.nearest)).Sound where
  exact := by
    intro e w hw
    rw [stored?_storeScalars] at hw
    exact h.exact e w hw
  scalars := by
    intro e w hw
    rw [scalars?_storeScalars] at hw
    rcases Option.or_eq_some_iff.mp hw with hold | ⟨-, hnew⟩
    · exact h.scalars e w hold
    · split at hnew
      · next he => exact ⟨v, he ▸ hd, (Option.some.inj hnew).symm⟩
      · simp at hnew

end Sound

end Cache

end FiniteDifference
