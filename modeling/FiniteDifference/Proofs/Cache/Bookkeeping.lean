import FiniteDifference.Proofs.Cache.Balance
import FiniteDifference.Proofs.Cache.Tallied
import FiniteDifference.Proofs.Cache.Transparency
import FiniteDifference.Scalar.Exact
import Mathlib.Data.List.DropRight

/-!
# The bookkeeping of the cache

After every history of operations, whether they answered or failed, the entries, the counters and the
journal agree with one another: every miss since the last removal of all entries is reported once, and it
led to an entry or its generation failed.
-/

open FiniteDifference.Action

namespace FiniteDifference

variable {α : Type} [Scalar α]

/-! ## Histories since the last removal -/

/-- Whether an operation removes all entries. -/
def Operation.isClear : Operation α → Bool
  | .clear => true
  | _ => false

/-- The operations up to the last removal of all entries, none if there is no removal. -/
def upToClear (history : List (Operation α)) : List (Operation α) :=
  history.rdropWhile fun op => !op.isClear

variable [Memory]

/-- The length of the journal at the last removal of all entries. -/
def Session.mark (history : List (Operation α)) : ℕ :=
  (Session.after (upToClear history)).journal.length

/-- **Recent generations.** The stencils reported to be generated since the last removal of all entries. -/
def Session.recent (history : List (Operation α)) : List Descriptor :=
  generatedIn ((Session.after history).journal.drop (Session.mark history))

theorem Session.after_append_singleton (history : List (Operation α)) (op : Operation α) :
    Session.after (history ++ [op]) = op.apply (Session.after history) := by
  rw [Session.after, List.foldl_append]
  rfl

theorem Session.mark_append_of_not_clear (history : List (Operation α)) {op : Operation α}
    (h : op.isClear = false) : Session.mark (history ++ [op]) = Session.mark history := by
  rw [mark, upToClear, List.rdropWhile_concat_pos _ _ _ (by rw [h]; rfl)]
  rfl

theorem Session.mark_append_clear (history : List (Operation α)) :
    Session.mark (history ++ [.clear]) = (Session.after history).journal.length := by
  rw [mark, upToClear, List.rdropWhile_concat_neg _ _ _ (by simp [Operation.isClear]),
    after_append_singleton]
  rfl

/-- **Balance after histories.** The books since the last removal of all entries are closed. -/
theorem Session.balanced_after (history : List (Operation α)) :
    mark history ≤ (Session.after history).journal.length ∧
      Tally.Balanced 0 ((Session.after history).tally (mark history)) := by
  induction history using List.reverseRecOn with
  | nil => exact ⟨le_rfl, Tally.Balanced.empty⟩
  | append_singleton history op ih =>
    obtain ⟨hmark, hbalanced⟩ := ih
    rw [after_append_singleton]
    cases op with
    | ask r =>
      obtain ⟨lookups, htallies⟩ := r.composed_ask.exists_lookups
      obtain ⟨hmark', htally⟩ := htallies _ _ (Session.sound_after history) hmark
      rw [mark_append_of_not_clear history rfl]
      refine ⟨hmark', ?_⟩
      show Tally.Balanced 0 ((r.ask.perform (Session.after history)).2.tally _)
      rw [htally]
      exact hbalanced.enterAll lookups
    | member a =>
      rw [mark_append_of_not_clear history rfl, Operation.apply, Cache.perform_member]
      exact ⟨hmark, hbalanced⟩
    | clear =>
      rw [mark_append_clear]
      refine ⟨le_rfl, ?_⟩
      -- nothing is stored, and nothing was reported after the removal
      have hempty : (Operation.clear.apply (Session.after history)).tally
          (Session.after history).journal.length = ⟨0, 0, 0, 0, 0⟩ :=
        congrArg (fun journal : List (Entry α) => Tally.mk 0 0 (generatedIn journal) 0 0)
          (List.drop_length)
      rw [hempty]
      exact Tally.Balanced.empty

/-! ## Bookkeeping -/

namespace Session

variable (history : List (Operation α))

/-- After a history there is one report for each miss since the last removal. -/
theorem misses_after : (after history).cache.misses = (recent history).length :=
  (balanced_after history).2.misses

/-- The solvable stencils among the reported ones are the stored ones. -/
theorem filter_recent_perm :
    ((recent history).filter fun d => d.Solvable).Perm (after history).cache.keys := by
  have hnoted := (balanced_after history).2.noted
  rw [zero_add] at hnoted
  exact Multiset.coe_eq_coe.mp ((Multiset.filter_coe _ _).symm.trans hnoted)

omit [Memory] [Scalar α] in
/-- A stencil is contained if the tally has it among the stored ones. -/
theorem contains_iff (session : Session α) (mark : ℕ) (d : Descriptor) :
    session.cache.contains d ↔ d ∈ (session.tally mark).stored :=
  (session.cache.isSome_stored? d).trans Multiset.mem_coe.symm

/-- After a history an exact lookup has the outcome of the generation. -/
theorem outcome_exactOf (d : Descriptor) :
    ((Cache.exactOf d).perform (after history)).1 = d.generated :=
  (Cache.yields_exactOf d).outcome_after history

end Session

/-- **Bookkeeping.** What the entries, the counters and the journal of a session have to do with one another;
`recent` are the stencils reported to be generated since the last removal of all entries. -/
structure Session.Bookkept (session : Session α) (recent : List Descriptor) : Prop where
  /-- With a tensor stencil its axes are stored. -/
  axes : ∀ t : Tensor, session.cache.contains (.tensor t) →
    ∀ s ∈ t.axes, session.cache.contains (.axis s)
  /-- Scalars are stored only with the exact coefficients. -/
  scalars : ∀ d, (session.cache.scalars? d).isSome → session.cache.contains d
  /-- Each miss led to an entry, or it is one of a stencil that is not solvable. -/
  misses : session.cache.misses
    = session.cache.size + (recent.filter fun d => ¬d.Solvable).length
  /-- A lookup fails exactly for the stencils that are not solvable. -/
  fails : ∀ d, (∃ fault, ((Cache.exactOf d).perform session).1 = .error fault) ↔ ¬d.Solvable
  /-- Unless there is no room for its grids, it fails only if the grid points cannot be counted. -/
  faults : ∀ d fault, ((Cache.exactOf d).perform session).1 = .error fault →
    fault = .noRoom ∨ RowMajor.sizeBound ≤ d.size
  /-- A stencil is a member exactly if the next exact lookup of it is a hit and no miss. -/
  member : ∀ d, ((Cache.member (.descriptor d)).perform session).1 = .ok true ↔
    let next := ((Cache.exact (.descriptor d)).perform session).2.cache
    next.hits = session.cache.hits + 1 ∧ next.misses = session.cache.misses
  /-- There is one report for each miss. -/
  reports : session.cache.misses = recent.length
  /-- No stencil is generated twice, except those that are not solvable. -/
  once : (recent.filter fun d => d.Solvable).Nodup

/-- **Bookkeeping after histories.** After every history the entries, the counters and the journal agree. -/
theorem Session.bookkept_after (history : List (Operation α)) :
    (Session.after history).Bookkept (Session.recent history) where
  axes := by
    intro t ht s hs
    rw [contains_iff _ (mark history)] at ht ⊢
    exact (balanced_after history).2.axes _ ht s hs
  scalars := by
    intro d hd
    rw [contains_iff _ (mark history)]
    have hrounded := Multiset.mem_coe.mpr ((Cache.isSome_scalars? _ d).mp hd)
    exact (balanced_after history).2.rounded d hrounded
  misses := by
    rw [misses_after, ← Cache.length_keys, ← (filter_recent_perm history).length_eq]
    have hsplit := (recent history).length_eq_length_filter_add fun d => decide d.Solvable
    simpa only [decide_not] using hsplit
  fails := by
    intro d
    rw [outcome_exactOf]
    exact d.exists_fault_iff
  faults := by
    intro d fault hfault
    rw [outcome_exactOf] at hfault
    exact Descriptor.noRoom_or_uncounted hfault
  member := by
    intro d
    have hmember : ((Cache.member (.descriptor d)).perform (Session.after history)).1
        = .ok ((Session.after history).cache.contains d) := rfl
    obtain ⟨-, htally⟩ :=
      Cache.tallies_exactOf d _ _ (sound_after history) (balanced_after history).1
    rw [hmember, Except.ok.injEq, contains_iff _ (mark history), Tally.mem_stored_iff, ← htally]
    rfl
  reports := misses_after history
  once := by
    have hkeys : (Session.after history).cache.keys.Nodup :=
      Multiset.coe_nodup.mp (balanced_after history).2.nodup
    exact (filter_recent_perm history).nodup_iff.mpr hkeys

omit [Memory] [Scalar α] in
/-- One request can be charged with more than one miss without an entry: where the grid points along an axis
cannot be counted, the tensor stencil and its axis are both reported, and nothing is stored. -/
theorem not_misses_le_requests :
    letI : Memory := .ample
    letI : Scalar ℚ := Scalar.exact fun _ _ => 0
    ¬∀ history : List (Operation ℚ), ∃ failed ≤ history.length,
      (Session.after history).cache.misses = (Session.after history).cache.size + failed := by
  let : Memory := .ample
  let : Scalar ℚ := Scalar.exact fun _ _ => 0
  intro hrequests
  let request : Operation ℚ :=
    .ask (.exact (.descriptor (.tensor (.single .uncountedForward))))
  obtain ⟨failed, hfailed, hmisses⟩ := hrequests [request]
  have htwo : (Session.after [request]).cache.misses = 2 := by decide +kernel
  have hnone : (Session.after [request]).cache.size = 0 := by decide +kernel
  have hone : failed ≤ 1 := hfailed
  omega

end FiniteDifference
