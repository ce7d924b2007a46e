import FiniteDifference.Proofs.Cache.Composed
import FiniteDifference.Proofs.Cache.Tally

/-!
# Tallies of sessions

The tally of a session reads the stencils off its cache and the reports off its journal.  On sound caches
an action composed of the parts of requests changes the tally by a list of lookups, which is the same for
all sessions.
-/

open FiniteDifference.Action

namespace FiniteDifference

variable {α β γ : Type}

/-- The stencils that journal entries report to be generated, in order. -/
def generatedIn (journal : List (Entry α)) : List Descriptor := journal.filterMap Entry.generated?

/-! ## Stored stencils -/

namespace Cache

/-- The stencils with stored exact coefficients. -/
def keys (c : Cache α) : List Descriptor :=
  c.stencils.map (fun entry => .axis entry.1) ++ c.tensors.map fun entry => .tensor entry.1

@[simp] theorem length_keys (c : Cache α) : c.keys.length = c.size := by
  simp [keys, size]

theorem isSome_stored? (c : Cache α) (d : Descriptor) : (c.stored? d).isSome ↔ d ∈ c.keys := by
  cases d with
  | axis s => simp [stored?, keys]
  | tensor t => simp [stored?, keys]

theorem isSome_scalars? (c : Cache α) (d : Descriptor) :
    (c.scalars? d).isSome ↔ d ∈ c.scalars.map (·.1) := by
  simp [scalars?]

/-- Storing exact coefficients leaves the scalar ones and the counters as they are. -/
theorem exists_store (c : Cache α) (d : Descriptor) (v : List Rat) :
    ∃ stencils tensors, c.store d v = ⟨stencils, tensors, c.scalars, c.hits, c.misses⟩ := by
  unfold store
  split
  · exact ⟨c.stencils, c.tensors, rfl⟩
  · cases d <;> exact ⟨_, _, rfl⟩

/-- Storing scalar coefficients leaves the exact ones and the counters as they are. -/
theorem exists_storeScalars (c : Cache α) (d : Descriptor) (v : List α) :
    ∃ scalars, c.storeScalars d v = ⟨c.stencils, c.tensors, scalars, c.hits, c.misses⟩ := by
  unfold storeScalars
  split
  · exact ⟨c.scalars, rfl⟩
  · exact ⟨_, rfl⟩

/-- Adding a key unless it is there. -/
theorem coe_eq_ndinsert {keys keys' : List Descriptor} {d : Descriptor}
    (hold : d ∈ keys → keys' = keys) (hnew : d ∉ keys → keys'.Perm (d :: keys)) :
    (keys' : Multiset Descriptor) = (keys : Multiset Descriptor).ndinsert d := by
  by_cases h : d ∈ keys
  · rw [hold h, Multiset.ndinsert_of_mem (Multiset.mem_coe.mpr h)]
  · rw [Multiset.ndinsert_of_notMem (mt Multiset.mem_coe.mp h), Multiset.cons_coe,
      Multiset.coe_eq_coe]
    exact hnew h

/-- Storing exact coefficients adds one key. -/
theorem coe_keys_store (c : Cache α) (d : Descriptor) (v : List Rat) :
    ((c.store d v).keys : Multiset Descriptor) = (c.keys : Multiset Descriptor).ndinsert d := by
  apply coe_eq_ndinsert
  · intro h
    unfold store contains
    rw [if_pos ((c.isSome_stored? d).mpr h)]
  · intro h
    unfold store contains
    rw [if_neg (mt (c.isSome_stored? d).mp h)]
    cases d with
    | axis s => simp [keys]
    | tensor t => simp [keys, ← List.append_assoc]

/-- Storing scalar coefficients adds one key. -/
theorem coe_scalars_storeScalars (c : Cache α) (d : Descriptor) (v : List α) :
    (((c.storeScalars d v).scalars.map (·.1) : List Descriptor) : Multiset Descriptor)
      = ((c.scalars.map (·.1) : List Descriptor) : Multiset Descriptor).ndinsert d := by
  apply coe_eq_ndinsert
  · intro h
    rw [storeScalars, if_pos ((c.isSome_scalars? d).mpr h)]
  · intro h
    rw [storeScalars, if_neg (mt (c.isSome_scalars? d).mp h)]
    simp

end Cache

/-! ## The tally of a session -/

/-- **The tally of a session.** Only the journal entries after a mark are counted. -/
def Session.tally (mark : ℕ) (session : Session α) : Tally where
  stored := session.cache.keys
  rounded := session.cache.scalars.map (·.1)
  noted := generatedIn (session.journal.drop mark)
  hits := session.cache.hits
  misses := session.cache.misses

/-- An entry at the end of a journal counts if it is a report of a generation. -/
theorem generatedIn_append_singleton {mark : ℕ} {journal : List (Entry α)}
    (h : mark ≤ journal.length) (entry : Entry α) :
    generatedIn ((journal ++ [entry]).drop mark)
      = generatedIn (journal.drop mark) ++ entry.generated?.toList := by
  unfold generatedIn
  rw [List.drop_append_of_le_length h, List.filterMap_append]
  cases hentry : entry.generated? <;> simp [hentry]

/-- Counting a miss and reporting it. -/
theorem Session.tally_miss {mark : ℕ} {session : Session α} (h : mark ≤ session.journal.length)
    (d : Descriptor) :
    Session.tally mark ⟨session.cache.miss, session.calls, session.journal ++ [.generating d]⟩
      = (session.tally mark).miss d := by
  have hnoted : (generatedIn ((session.journal ++ [Entry.generating d]).drop mark)
        : Multiset Descriptor)
      = d ::ₘ (generatedIn (session.journal.drop mark) : Multiset Descriptor) := by
    rw [generatedIn_append_singleton h, Multiset.cons_coe, Multiset.coe_eq_coe]
    exact List.perm_append_singleton d _
  exact congrArg (Tally.mk _ _ · _ _) hnoted

variable [Memory]

/-- Storing the exact coefficients of a solvable stencil. -/
theorem Session.tally_store {d : Descriptor} (hd : d.Solvable) (mark : ℕ) (session : Session α)
    (v : List Rat) :
    Session.tally mark { session with cache := session.cache.store d v }
      = (session.tally mark).store d := by
  have hkeys := session.cache.coe_keys_store d v
  obtain ⟨stencils, tensors, hstore⟩ := session.cache.exists_store d v
  rw [Tally.store, Tally.insertSolvable, if_pos hd]
  rw [hstore] at hkeys ⊢
  exact congrArg (Tally.mk · _ _ _ _) hkeys

/-- Storing the scalar coefficients of a solvable stencil. -/
theorem Session.tally_storeScalars {d : Descriptor} (hd : d.Solvable) (mark : ℕ)
    (session : Session α) (v : List α) :
    Session.tally mark { session with cache := session.cache.storeScalars d v }
      = (session.tally mark).round d := by
  have hkeys := session.cache.coe_scalars_storeScalars d v
  obtain ⟨scalars, hstore⟩ := session.cache.exists_storeScalars d v
  rw [Tally.round, Tally.insertSolvable, if_pos hd]
  rw [hstore] at hkeys ⊢
  exact congrArg (Tally.mk _ · _ _ _) hkeys

/-! ## Actions on tallies -/

namespace Action

variable [Scalar α]

/-- **Tallied actions.** From every session with a sound cache the action changes the tally by the step. -/
def Tallies (a : Action α β) (step : Tally → Tally) : Prop :=
  ∀ (session : Session α) (mark : ℕ), session.cache.Sound → mark ≤ session.journal.length →
    mark ≤ (a.perform session).2.journal.length ∧
      (a.perform session).2.tally mark = step (session.tally mark)

namespace Tallies

theorem ofExcept (outcome : Except (Fault α) β) : Tallies (Action.ofExcept outcome) id := by
  intro session mark _ hmark
  cases outcome <;> exact ⟨hmark, rfl⟩

theorem recordCall (p : Point α) : Tallies (Action.recordCall p) id :=
  fun _ _ _ hmark => ⟨hmark, rfl⟩

/-- An entry of the journal that is no report of a generation. -/
theorem note {entry : Entry α} (h : entry.generated? = none) :
    Tallies (Action.note entry) id := by
  intro session mark _ hmark
  refine ⟨hmark.trans (List.length_append.symm ▸ Nat.le_add_right _ _), ?_⟩
  have hnoted := generatedIn_append_singleton hmark entry
  rw [h, Option.toList_none, List.append_nil] at hnoted
  exact congrArg (fun noted : List Descriptor => Tally.mk _ _ noted _ _) hnoted

variable {a : Action α β} {f : β → Action α γ} {step further : Tally → Tally}
  {calls : List (Point α)}

/-- Two actions in sequence, the first of which succeeds. -/
theorem bind {b : β} (hyields : Yields a (.ok b) calls) (ha : Tallies a step)
    (hf : Tallies (f b) further) : Tallies (a >>= f) (further ∘ step) := by
  intro session mark hsound hmark
  obtain ⟨hout, -, hafter⟩ := hyields session hsound
  obtain ⟨hmark, htally⟩ := ha session mark hsound hmark
  obtain ⟨hmark', htally'⟩ := hf (a.perform session).2 mark hafter hmark
  rw [perform_bind_ok (Prod.ext hout rfl)]
  exact ⟨hmark', htally'.trans (congrArg further htally)⟩

/-- Two actions in sequence, the first of which fails. -/
theorem bind_error {fault : Fault α} (hyields : Yields a (.error fault) calls) (ha : Tallies a step) :
    Tallies (a >>= f) step := by
  intro session mark hsound hmark
  rw [perform_bind_error (Prod.ext (hyields session hsound).1 rfl)]
  exact ha session mark hsound hmark

/-- An action in front of others that do not change tallies. -/
theorem followed {outcome : Except (Fault α) β} (hyields : Yields a outcome calls)
    (ha : Tallies a step) (hf : ∀ b, Tallies (f b) id) : Tallies (a >>= f) step := by
  cases outcome with
  | error fault => exact bind_error hyields ha
  | ok b =>
    have hboth : Tallies (a >>= f) (id ∘ step) := bind hyields ha (hf b)
    exact hboth

theorem attempt (ha : Tallies a step) :
    Tallies (ExceptT.mk do return .ok (← a.run) : Action α (Except (Fault α) β)) step :=
  ha

end Tallies

end Action

/-! ## Lookups on tallies -/

namespace Cache

variable [Scalar α]

/-- **Exact lookups.** The generation starts after the miss is counted and reported. -/
theorem tallies_lookupOr {d : Descriptor} {generate : Action α (List Rat)} {step : Tally → Tally}
    (hyields : Yields generate d.generated []) (h : Tallies generate step) :
    Tallies (lookupOr d generate) (Tally.lookup d step) := by
  intro session mark hsound hmark
  have hstored : (session.cache.stored? d).isSome ↔ d ∈ (session.tally mark).stored :=
    (isSome_stored? _ d).trans Multiset.mem_coe.symm
  rw [lookupOr, perform_cache_bind, Tally.lookup]
  cases hlookup : session.cache.stored? d with
  | some v =>
    rw [if_pos (hstored.mp (by rw [hlookup, Option.isSome_some]))]
    exact ⟨hmark, rfl⟩
  | none =>
    rw [if_neg fun hmem => by simpa [hlookup] using hstored.mpr hmem]
    simp only [perform_updateCache_bind, perform_note_bind]
    let counted : Session α :=
      ⟨session.cache.miss, session.calls, session.journal ++ [.generating d]⟩
    have hjournal : mark ≤ counted.journal.length :=
      hmark.trans (List.length_append.symm ▸ Nat.le_add_right _ _)
    obtain ⟨hout, -, -⟩ := hyields counted hsound.miss
    obtain ⟨hmark', htally⟩ := h counted mark hsound.miss hjournal
    rw [← Session.tally_miss hmark, ← htally]
    by_cases hsolvable : d.Solvable
    · obtain ⟨v, hv⟩ := Descriptor.generated_of_solvable (α := α) hsolvable
      rw [perform_bind_ok (Prod.ext (hout.trans hv) rfl), perform_updateCache_bind]
      exact ⟨hmark', Session.tally_store hsolvable mark _ v⟩
    · obtain ⟨fault, hfault, -⟩ := Descriptor.generated_of_not_solvable (α := α) hsolvable
      rw [perform_bind_error (Prod.ext (hout.trans hfault) rfl),
        Tally.store_of_not_solvable hsolvable]
      exact ⟨hmark', rfl⟩

theorem tallies_exactStencil (s : Stencil) :
    Tallies (exactStencil s : Action α (List Rat)) (Tally.axis s) :=
  tallies_lookupOr (d := .axis s) (Yields.ofExcept _) (Tallies.ofExcept _)

/-- Lookups for the axes of a tensor stencil, which end at the first one that is not solvable. -/
theorem tallies_mapM (axes : List Stencil) :
    Tallies (axes.mapM exactStencil : Action α (List (List Rat))) (Tally.axes (visitedAxes axes)) := by
  induction axes with
  | nil => exact Tallies.ofExcept (.ok [])
  | cons s axes ih =>
    rw [List.mapM_cons, visitedAxes]
    have hs := tallies_exactStencil (α := α) s
    have hyields := yields_exactOf (α := α) (.axis s)
    by_cases hsolvable : (Descriptor.axis s).Solvable
    · obtain ⟨v, hv⟩ := Descriptor.generated_of_solvable (α := α) hsolvable
      rw [hv] at hyields
      rw [if_pos hsolvable]
      show Tallies _ (Tally.axes (visitedAxes axes) ∘ Tally.axis s)
      refine Tallies.bind hyields hs ?_
      exact Tallies.followed (Yields.mapM yields_exactStencil axes) ih fun rows =>
        Tallies.ofExcept (.ok (v :: rows))
    · obtain ⟨fault, hfault, -⟩ := Descriptor.generated_of_not_solvable (α := α) hsolvable
      rw [hfault] at hyields
      rw [if_neg hsolvable]
      exact Tallies.bind_error hyields hs

/-- An exact lookup for a stencil of either kind. -/
theorem tallies_exactOf (d : Descriptor) :
    Tallies (exactOf d : Action α (List Rat)) (Tally.exact d) := by
  cases d with
  | axis s => exact tallies_exactStencil s
  | tensor t =>
    have hrows := Yields.mapM (α := α) yields_exactStencil t.axes
    refine tallies_lookupOr (d := .tensor t) ?_ ?_
    · exact hrows.bind_outcome fun rows => Yields.ofExcept (Coefficients.ofRows t.lengths rows)
    · exact Tallies.followed hrows (tallies_mapM t.axes) fun rows =>
        Tallies.ofExcept (Coefficients.ofRows t.lengths rows)

/-- A lookup of scalars. -/
theorem tallies_scalarsOf (d : Descriptor) :
    Tallies (scalarsOf d : Action α (List α)) (Tally.scalars d) := by
  intro session mark hsound hmark
  have hstored : (session.cache.scalars? d).isSome ↔ d ∈ (session.tally mark).rounded :=
    (isSome_scalars? _ d).trans Multiset.mem_coe.symm
  rw [scalarsOf, perform_cache_bind, Tally.scalars]
  cases hlookup : session.cache.scalars? d with
  | some v =>
    rw [if_pos (hstored.mp (by rw [hlookup, Option.isSome_some]))]
    exact ⟨hmark, rfl⟩
  | none =>
    rw [if_neg fun hmem => by simpa [hlookup] using hstored.mpr hmem]
    obtain ⟨hout, -, -⟩ := yields_exactOf d session hsound
    obtain ⟨hmark, htally⟩ := tallies_exactOf d session mark hsound hmark
    rw [← htally]
    dsimp only
    by_cases hsolvable : d.Solvable
    · obtain ⟨v, hv⟩ := Descriptor.generated_of_solvable (α := α) hsolvable
      rw [perform_bind_ok (Prod.ext (hout.trans hv) rfl), perform_updateCache_bind]
      exact ⟨hmark, Session.tally_storeScalars hsolvable mark _ _⟩
    · obtain ⟨fault, hfault, -⟩ := Descriptor.generated_of_not_solvable (α := α) hsolvable
      rw [perform_bind_error (Prod.ext (hout.trans hfault) rfl),
        Tally.round_of_not_solvable hsolvable]
      exact ⟨hmark, rfl⟩

end Cache

/-- **Lookups of an action.** On all sessions with sound caches a composed action makes the same
lookups. -/
theorem Action.Composed.exists_lookups [Scalar α] {a : Action α β} (h : Composed a) :
    ∃ lookups : List Tally.Lookup, Tallies a (Tally.enterAll lookups) := by
  induction h with
  | ofExcept outcome => exact ⟨[], Tallies.ofExcept outcome⟩
  | recordCall p => exact ⟨[], Tallies.recordCall p⟩
  | note entry h => exact ⟨[], Tallies.note h⟩
  | exactOf d => exact ⟨[.exact d], Cache.tallies_exactOf d⟩
  | scalarsOf d => exact ⟨[.scalars d], Cache.tallies_scalarsOf d⟩
  | attempt h ih =>
    obtain ⟨lookups, ih⟩ := ih
    exact ⟨lookups, ih.attempt⟩
  | bind ha hf iha ihf =>
    obtain ⟨lookups, iha⟩ := iha
    obtain ⟨outcome, calls, hyields⟩ := ha.transparent
    -- the lookups of the second action depend on the answer of the first one, which is always the same
    cases outcome with
    | error fault => exact ⟨lookups, Tallies.bind_error hyields iha⟩
    | ok b =>
      obtain ⟨further, ihf⟩ := ihf b
      refine ⟨lookups ++ further, ?_⟩
      rw [Tally.enterAll_append]
      exact Tallies.bind hyields iha ihf

end FiniteDifference
