import FiniteDifference.Proofs.Cache.Yields

/-!
# Lookups in sound caches

On a sound cache every lookup has the outcome of generating the coefficients, whatever is stored: a hit
answers what a miss would have generated, and a tensor stencil finds its axes in the same cache.
-/

open FiniteDifference.Action

namespace FiniteDifference.Cache

variable [Memory] {α : Type} [Scalar α]

/-! ## Exact coefficients -/

/-- **Exact lookups.** A lookup that generates the right coefficients where none are stored yields
them. -/
theorem yields_lookupOr {d : Descriptor} {generate : Action α (List Rat)}
    (h : Yields generate d.generated []) : Yields (lookupOr d generate) d.generated [] := by
  intro session hsound
  rw [lookupOr, perform_cache_bind]
  cases hstored : session.cache.stored? d with
  | some v => exact ⟨(hsound.exact d v hstored).symm, (List.append_nil _).symm, hsound.hit⟩
  | none =>
    -- a miss is counted and noted before the coefficients are generated
    simp only [perform_updateCache_bind, perform_note_bind]
    obtain ⟨hout, hcalls, hafter⟩ := h
      ⟨session.cache.miss, session.calls, session.journal ++ [.generating d]⟩ hsound.miss
    cases hgen : d.generated (α := α) with
    | error fault =>
      rw [perform_bind_error (Prod.ext (hout.trans hgen) rfl)]
      exact ⟨rfl, hcalls, hafter⟩
    | ok v =>
      rw [perform_bind_ok (Prod.ext (hout.trans hgen) rfl), perform_updateCache_bind]
      exact ⟨rfl, hcalls, hafter.store hgen⟩

theorem yields_exactStencil (s : Stencil) :
    Yields (exactStencil s : Action α (List Rat)) (Coefficients.ofStencil s) [] :=
  yields_lookupOr (d := .axis s) (Yields.ofExcept _)

/-- The exact coefficients of a stencil of either kind. -/
theorem yields_exactOf (d : Descriptor) :
    Yields (exactOf d : Action α (List Rat)) d.generated [] := by
  cases d with
  | axis s => exact yields_exactStencil s
  | tensor t =>
    refine yields_lookupOr (d := .tensor t) ?_
    exact Yields.bind_outcome (Yields.mapM yields_exactStencil t.axes) fun rows =>
      Yields.ofExcept (Coefficients.ofRows t.lengths rows)

/-! ## Scalar coefficients -/

/-- The scalars nearest to the generated coefficients. -/
def generatedScalars (d : Descriptor) : Except (Fault α) (List α) :=
  d.generated.map (·.map Scalar.nearest)

/-- **Scalar lookups.** They yield the scalars nearest to the generated coefficients. -/
theorem yields_scalarsOf (d : Descriptor) :
    Yields (scalarsOf d : Action α (List α)) (generatedScalars d) [] := by
  intro session hsound
  rw [scalarsOf, perform_cache_bind]
  cases hstored : session.cache.scalars? d with
  | some v =>
    -- what is stored was rounded from generated coefficients
    obtain ⟨e, he, rfl⟩ := hsound.scalars d v hstored
    exact ⟨by rw [generatedScalars, he]; rfl, (List.append_nil _).symm, hsound⟩
  | none =>
    obtain ⟨hout, hcalls, hafter⟩ := yields_exactOf d session hsound
    dsimp only
    rw [generatedScalars]
    cases hgen : d.generated (α := α) with
    | error fault =>
      rw [perform_bind_error (Prod.ext (hout.trans hgen) rfl)]
      exact ⟨rfl, hcalls, hafter⟩
    | ok v =>
      rw [perform_bind_ok (Prod.ext (hout.trans hgen) rfl), perform_updateCache_bind]
      exact ⟨rfl, hcalls, hafter.storeScalars hgen⟩

theorem yields_coefficients (a : Argument α) :
    Yields (coefficients a) (requireKey a >>= fun _ => descriptorOf a >>= generatedScalars) [] :=
  Yields.bind_outcome (Yields.ofExcept _) fun _ =>
    Yields.bind_outcome (Yields.ofExcept _) yields_scalarsOf

end FiniteDifference.Cache
