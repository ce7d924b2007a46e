import FiniteDifference.Proofs.Cache.Sound
import FiniteDifference.Workers

/-!
# Actions on sound caches

An action yields an outcome and calls if it has this outcome and makes these calls in every session whose
cache is sound, and leaves the cache sound.  An action that yields some outcome and some calls cannot
tell one sound cache from another; the rules of this module build such actions from their parts.
-/

namespace FiniteDifference

variable {α β γ : Type}

namespace Action

/-! ## Performing composite actions -/

/-- After a first action that succeeds, the second one is performed on the session it left. -/
theorem perform_bind_ok {a : Action α β} {f : β → Action α γ} {session after : Session α} {b : β}
    (h : a.perform session = (.ok b, after)) :
    (a >>= f).perform session = (f b).perform after := by
  show StateT.run (ExceptT.run a >>= ExceptT.bindCont fun b => f b) session = _
  rw [StateT.run_bind]
  have hrun : StateT.run (ExceptT.run a) session = (.ok b, after) := h
  rw [hrun]
  rfl

/-- A first action that fails ends the whole. -/
theorem perform_bind_error {a : Action α β} {f : β → Action α γ} {session after : Session α}
    {fault : Fault α} (h : a.perform session = (.error fault, after)) :
    (a >>= f).perform session = (.error fault, after) := by
  show StateT.run (ExceptT.run a >>= ExceptT.bindCont fun b => f b) session = _
  rw [StateT.run_bind]
  have hrun : StateT.run (ExceptT.run a) session = (.error fault, after) := h
  rw [hrun]
  rfl

/-- What follows a look at the cache sees the cache of the session. -/
theorem perform_cache_bind (f : Cache α → Action α β) (session : Session α) :
    (Action.cache >>= f).perform session = (f session.cache).perform session :=
  perform_bind_ok (a := Action.cache) rfl

/-- What follows a change of the cache is performed with the changed cache. -/
theorem perform_updateCache_bind (g : Cache α → Cache α) (f : Unit → Action α β)
    (session : Session α) :
    (Action.updateCache g >>= f).perform session
      = (f ()).perform { session with cache := g session.cache } :=
  perform_bind_ok (a := Action.updateCache g) rfl

/-- What follows a journal entry is performed with the longer journal. -/
theorem perform_note_bind (entry : Entry α) (f : Unit → Action α β) (session : Session α) :
    (Action.note entry >>= f).perform session
      = (f ()).perform { session with journal := session.journal ++ [entry] } :=
  perform_bind_ok (a := Action.note entry) rfl

/-! ## Yielding -/

variable [Memory] [Scalar α]

/-- **Yielding.** From every session with a sound cache the action has the outcome, records the calls and
leaves a sound cache. -/
def Yields (a : Action α β) (outcome : Except (Fault α) β) (calls : List (Point α)) : Prop :=
  ∀ session : Session α, session.cache.Sound →
    (a.perform session).1 = outcome ∧ (a.perform session).2.calls = session.calls ++ calls ∧
      (a.perform session).2.cache.Sound

namespace Yields

theorem pure (b : β) : Yields (Pure.pure b : Action α β) (.ok b) [] :=
  fun session h => ⟨rfl, (List.append_nil session.calls).symm, h⟩

theorem ofExcept (outcome : Except (Fault α) β) : Yields (Action.ofExcept outcome) outcome [] := by
  intro session h
  cases outcome <;> exact ⟨rfl, (List.append_nil session.calls).symm, h⟩

theorem recordCall (p : Point α) : Yields (Action.recordCall p) (.ok ()) [p] :=
  fun _ h => ⟨rfl, rfl, h⟩

theorem note (entry : Entry α) : Yields (Action.note entry) (.ok ()) [] :=
  fun session h => ⟨rfl, (List.append_nil session.calls).symm, h⟩

variable {a : Action α β} {f : β → Action α γ} {outcome : Except (Fault α) γ}
  {calls further : List (Point α)}

/-- Two actions in sequence, the first of which succeeds. -/
theorem bind {b : β} (ha : Yields a (.ok b) calls) (hf : Yields (f b) outcome further) :
    Yields (a >>= f) outcome (calls ++ further) := by
  intro session h
  obtain ⟨hout, hcalls, hsound⟩ := ha session h
  obtain ⟨hout', hcalls', hsound'⟩ := hf (a.perform session).2 hsound
  rw [perform_bind_ok (Prod.ext hout rfl)]
  exact ⟨hout', by rw [hcalls', hcalls, List.append_assoc], hsound'⟩

/-- Two actions in sequence, the first of which succeeds and makes no calls. -/
theorem silent_bind {b : β} (ha : Yields a (.ok b) []) (hf : Yields (f b) outcome calls) :
    Yields (a >>= f) outcome calls :=
  bind ha hf

/-- Two actions in sequence, the second of which makes no calls. -/
theorem bind_silent {b : β} (ha : Yields a (.ok b) calls) (hf : Yields (f b) outcome []) :
    Yields (a >>= f) outcome calls := by
  rw [← List.append_nil calls]
  exact bind ha hf

/-- Two actions in sequence, the first of which fails. -/
theorem bind_error {fault : Fault α} (ha : Yields a (.error fault) calls) :
    Yields (a >>= f) (.error fault) calls := by
  intro session h
  obtain ⟨hout, hcalls, hsound⟩ := ha session h
  rw [perform_bind_error (Prod.ext hout rfl)]
  exact ⟨rfl, hcalls, hsound⟩

/-- Two actions in sequence that make no calls have the outcome of their outcomes in sequence. -/
theorem bind_outcome {first : Except (Fault α) β} {next : β → Except (Fault α) γ}
    (ha : Yields a first []) (hf : ∀ b, Yields (f b) (next b) []) :
    Yields (a >>= f) (first >>= next) [] := by
  cases first with
  | error fault => exact bind_error ha
  | ok b => exact bind ha (hf b)

/-- Two actions in sequence, the first of which succeeds, whatever calls they make. -/
theorem exists_ok_bind {b : β} (ha : ∃ calls, Yields a (.ok b) calls)
    (hf : ∃ calls, Yields (f b) outcome calls) : ∃ calls, Yields (a >>= f) outcome calls := by
  obtain ⟨calls, ha⟩ := ha
  obtain ⟨further, hb⟩ := hf
  exact ⟨calls ++ further, bind ha hb⟩

/-- Two actions in sequence have the outcome of their outcomes in sequence, whatever calls they make. -/
theorem exists_bind {first : Except (Fault α) β} {next : β → Except (Fault α) γ}
    (ha : ∃ calls, Yields a first calls) (hf : ∀ b, ∃ calls, Yields (f b) (next b) calls) :
    ∃ calls, Yields (a >>= f) (first >>= next) calls := by
  cases first with
  | error fault =>
    obtain ⟨calls, ha⟩ := ha
    exact ⟨calls, bind_error ha⟩
  | ok b => exact exists_ok_bind ha (hf b)

/-- A choice has the outcome of the same choice of outcomes, whatever calls are made. -/
theorem exists_ite {c p : Prop} [Decidable c] [Decidable p] {a' : Action α β}
    {first other : Except (Fault α) β} (h : c ↔ p) (ha : p → ∃ calls, Yields a first calls)
    (ha' : ¬p → ∃ calls, Yields a' other calls) :
    ∃ calls, Yields (if c then a else a') (if p then first else other) calls := by
  by_cases hp : p
  · rw [if_pos hp, if_pos (h.mpr hp)]
    exact ha hp
  · rw [if_neg hp, if_neg (mt h.mp hp)]
    exact ha' hp

/-- A list of actions that make no calls has the outcome of their outcomes. -/
theorem mapM {τ : Type} {task : τ → Action α β} {result : τ → Except (Fault α) β}
    (h : ∀ t, Yields (task t) (result t) []) (tasks : List τ) :
    Yields (tasks.mapM task) (tasks.mapM result) [] := by
  induction tasks with
  | nil => exact pure []
  | cons t tasks ih =>
    rw [List.mapM_cons, List.mapM_cons]
    exact bind_outcome (h t) fun b => bind_outcome ih fun bs => pure (b :: bs)

/-- A list of actions that all succeed. -/
theorem mapM_ok {τ : Type} {task : τ → Action α β} {result : τ → β} {called : τ → List (Point α)}
    (h : ∀ t, Yields (task t) (.ok (result t)) (called t)) (tasks : List τ) :
    Yields (tasks.mapM task) (.ok (tasks.map result)) (tasks.flatMap called) := by
  induction tasks with
  | nil => exact pure []
  | cons t tasks ih =>
    rw [List.mapM_cons, List.map_cons, List.flatMap_cons]
    exact bind (h t) (bind_silent ih (pure _))

/-- The outcome of an attempt is an answer, whether the action failed or not. -/
theorem attempt {result : Except (Fault α) β} (ha : Yields a result calls) :
    Yields (ExceptT.mk do return .ok (← a.run) : Action α (Except (Fault α) β)) (.ok result)
      calls := by
  intro session h
  obtain ⟨hout, hcalls, hsound⟩ := ha session h
  refine ⟨?_, hcalls, hsound⟩
  rw [← hout]
  rfl

end Yields

/-! ## Transparency -/

/-- **Transparent actions.** Some outcome and some calls are the same for every sound cache. -/
def Transparent (a : Action α β) : Prop :=
  ∃ outcome calls, Yields a outcome calls

theorem Yields.transparent {a : Action α β} {outcome : Except (Fault α) β}
    {calls : List (Point α)} (h : Yields a outcome calls) : Transparent a :=
  ⟨outcome, calls, h⟩

namespace Transparent

/-- **Sequence.** Transparent actions in sequence are transparent. -/
theorem bind {a : Action α β} {f : β → Action α γ} (ha : Transparent a)
    (hf : ∀ b, Transparent (f b)) : Transparent (a >>= f) := by
  obtain ⟨outcome, calls, ha⟩ := ha
  cases outcome with
  | error fault => exact ha.bind_error.transparent
  | ok b =>
    obtain ⟨next, further, hb⟩ := hf b
    exact (ha.bind hb).transparent

theorem attempt {a : Action α β} (ha : Transparent a) :
    Transparent (ExceptT.mk do return .ok (← a.run) : Action α (Except (Fault α) β)) := by
  obtain ⟨outcome, calls, ha⟩ := ha
  exact ha.attempt.transparent

end Transparent

end Action

end FiniteDifference
