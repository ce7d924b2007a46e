import FiniteDifference.Proofs.Cache.Tallied
import FiniteDifference.Proofs.Cache.Transparency
import FiniteDifference.Scalar.Exact

/-!
# The order of requests

Requests one after the other, in any order, lead from one session to the same entries and the same counters
of the cache, and every request has the same answer in any order.
-/

open FiniteDifference.Action

namespace FiniteDifference

variable {α : Type} [Scalar α]

/-! ## Sound caches with the same keys -/

namespace Cache

/-- Two options are equal if both or none of them have a value and the values agree. -/
theorem eq_of_isSome_iff {τ : Type} {a b : Option τ} (hsome : a.isSome ↔ b.isSome)
    (hvalue : ∀ v w, a = some v → b = some w → v = w) : a = b := by
  cases a with
  | none =>
    cases b with
    | none => rfl
    | some w => simp at hsome
  | some v =>
    cases b with
    | none => simp at hsome
    | some w => rw [hvalue v w rfl rfl]

namespace Sound

variable [Memory] {c c' : Cache α}

/-- Two sound caches with the same keys store the same exact coefficients. -/
theorem stored?_eq (h : c.Sound) (h' : c'.Sound)
    (hkeys : (c.keys : Multiset Descriptor) = c'.keys) (d : Descriptor) :
    c.stored? d = c'.stored? d := by
  apply eq_of_isSome_iff
  · rw [isSome_stored?, isSome_stored?, ← Multiset.mem_coe, hkeys, Multiset.mem_coe]
  · intro v w hv hw
    -- both vectors are the one that is generated
    have hequal := (h.exact d v hv).symm.trans (h'.exact d w hw)
    exact Except.ok.inj hequal

/-- Two sound caches with the same keys of scalars store the same scalars. -/
theorem scalars?_eq (h : c.Sound) (h' : c'.Sound)
    (hkeys : ((c.scalars.map (·.1) : List Descriptor) : Multiset Descriptor)
      = ((c'.scalars.map (·.1) : List Descriptor) : Multiset Descriptor)) (d : Descriptor) :
    c.scalars? d = c'.scalars? d := by
  apply eq_of_isSome_iff
  · rw [isSome_scalars?, isSome_scalars?, ← Multiset.mem_coe, hkeys, Multiset.mem_coe]
  · intro v w hv hw
    obtain ⟨e, he, rfl⟩ := h.scalars d v hv
    obtain ⟨e', he', rfl⟩ := h'.scalars d w hw
    rw [Except.ok.inj (he.symm.trans he')]

end Sound

end Cache

/-! ## Runs -/

namespace Request

variable [Memory]

/-- **Runs.** The answers of requests one after the other, and the session after them. -/
def run : List (Request α) → Session α → List (Except (Fault α) (Reply α)) × Session α
  | [], session => ([], session)
  | r :: rs, session =>
    let rest := run rs (r.ask.perform session).2
    ((r.ask.perform session).1 :: rest.1, rest.2)

theorem sound_ask (r : Request α) {session : Session α} (h : session.cache.Sound) :
    (r.ask.perform session).2.cache.Sound :=
  (Operation.ask r).sound_apply h

theorem sound_run (rs : List (Request α)) {session : Session α} (h : session.cache.Sound) :
    (run rs session).2.cache.Sound := by
  induction rs generalizing session with
  | nil => exact h
  | cons r rs ih => exact ih (r.sound_ask h)

/-- The answers in a run are those that the requests have on any sound cache, such as the one at the start
of the run. -/
theorem answers_run (rs : List (Request α)) {session start : Session α} (h : session.cache.Sound)
    (hstart : start.cache.Sound) :
    (run rs session).1 = rs.map fun r => (r.ask.perform start).1 := by
  induction rs generalizing session with
  | nil => rfl
  | cons r rs ih =>
    obtain ⟨outcome, calls, hyields⟩ := r.transparent_ask
    have hanswer : (r.ask.perform session).1 = (r.ask.perform start).1 :=
      (hyields session h).1.trans (hyields start hstart).1.symm
    exact congrArg₂ List.cons hanswer (ih (r.sound_ask h))

/-- A run changes the tally by the lookups of its requests, one after the other. -/
theorem exists_lookups_run : ∃ lookups : Request α → List Tally.Lookup,
    ∀ (rs : List (Request α)) (session : Session α), session.cache.Sound →
      (run rs session).2.tally 0 = Tally.enterAll (rs.flatMap lookups) (session.tally 0) := by
  have hcomposed := fun r : Request α => r.composed_ask.exists_lookups
  choose lookups htallies using hcomposed
  refine ⟨lookups, fun rs => ?_⟩
  induction rs with
  | nil => exact fun _ _ => rfl
  | cons r rs ih =>
    intro session hsound
    obtain ⟨-, hstep⟩ := htallies r session 0 hsound (Nat.zero_le _)
    rw [List.flatMap_cons, Tally.enterAll_append, Function.comp_apply, ← hstep]
    exact ih _ (r.sound_ask hsound)

/-- **The order of requests does not matter.** From the session after any history, requests and a permutation
of them lead to the same exact coefficients, the same scalars and the same numbers of hits and misses, and
every request has the answer that it has when it is asked first. -/
theorem run_perm (history : List (Operation α)) {rs rs' : List (Request α)} (h : rs.Perm rs') :
    let start := Session.after history
    let last := (run rs start).2.cache
    let last' := (run rs' start).2.cache
    (∀ d, last.stored? d = last'.stored? d) ∧ (∀ d, last.scalars? d = last'.scalars? d) ∧
      last.hits = last'.hits ∧ last.misses = last'.misses ∧
      (run rs start).1 = rs.map (fun r => (r.ask.perform start).1) ∧
      (run rs' start).1 = rs'.map (fun r => (r.ask.perform start).1) := by
  intro start last last'
  have hsound : start.cache.Sound := Session.sound_after history
  -- the lookups of the permuted requests are a permutation of the lookups, and lookups commute
  obtain ⟨lookups, hrun⟩ := exists_lookups_run (α := α)
  have htally : (run rs start).2.tally 0 = (run rs' start).2.tally 0 := by
    rw [hrun rs start hsound, hrun rs' start hsound]
    exact congrFun (Tally.enterAll_perm (h.flatMap_right lookups)) _
  have hlast : last.Sound := sound_run rs hsound
  have hlast' : last'.Sound := sound_run rs' hsound
  exact ⟨hlast.stored?_eq hlast' (congrArg Tally.stored htally),
    hlast.scalars?_eq hlast' (congrArg Tally.rounded htally), congrArg Tally.hits htally,
    congrArg Tally.misses htally, answers_run rs hsound hsound, answers_run rs' hsound hsound⟩

omit [Memory] [Scalar α] in
/-- A tensor stencil with two equal axes and the scalars of this axis: in both orders there are two hits and
two misses, although the miss for the axis is one of the request that comes first. -/
theorem run_perm_square :
    letI : Memory := .ample
    letI : Scalar ℚ := Scalar.exact fun _ _ => 0
    let square : Tensor := ⟨[.twoPointForward, .twoPointForward], List.cons_ne_nil _ _⟩
    let tensor : Request ℚ := .exact (.descriptor (.tensor square))
    let axis : Request ℚ := .coefficients (.descriptor (.axis .twoPointForward))
    let last := (run [tensor, axis] (Session.after [])).2.cache
    let last' := (run [axis, tensor] (Session.after [])).2.cache
    last.hits = 2 ∧ last.misses = 2 ∧ last'.hits = 2 ∧ last'.misses = 2 := by
  let : Memory := .ample
  let : Scalar ℚ := Scalar.exact fun _ _ => 0
  intro square tensor axis last last'
  obtain ⟨-, -, hhits, hmisses, -⟩ := run_perm [] (List.Perm.swap axis tensor [])
  have htwoHits : last.hits = 2 := by decide +kernel
  have htwoMisses : last.misses = 2 := by decide +kernel
  exact ⟨htwoHits, htwoMisses, hhits.symm.trans htwoHits, hmisses.symm.trans htwoMisses⟩

end Request

end FiniteDifference
