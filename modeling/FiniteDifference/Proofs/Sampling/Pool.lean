import FiniteDifference.Proofs.Sampling.Outcomes
import Mathlib.Data.List.Perm.Basic
import Mathlib.Logic.Relation

/-!
# Pools of workers

Several workers take the tasks of a list up in an order of their own and put each outcome in the place of
its task.  Whatever the order is, once every place is filled the places report what the tasks give in the
order of the list, and the calls are those of all tasks in some order.  Carrying the tasks out one after the
other is one of these orders.
-/

open FiniteDifference.Action

namespace FiniteDifference.Workers

variable {α β τ : Type}

/-- **Pools.** The tasks with the places of their outcomes, which are empty at first, and the session. -/
structure Pool (τ α β : Type) where
  entries : List (τ × Option (Except (Fault α) β))
  session : Session α

namespace Pool

/-- The pool in which no task has been taken up. -/
def start (tasks : List τ) (session : Session α) : Pool τ α β :=
  ⟨tasks.map fun t => (t, none), session⟩

/-- **Steps.** A worker carries a task out whose place is empty, wherever it stands in the list. -/
inductive Step (task : τ → Action α β) : Pool τ α β → Pool τ α β → Prop
  | carryOut (before after : List (τ × Option (Except (Fault α) β))) (t : τ) (session : Session α) :
    Step task ⟨before ++ (t, none) :: after, session⟩
      ⟨before ++ (t, some ((task t).perform session).1) :: after, ((task t).perform session).2⟩

/-- **Runs.** Any number of steps. -/
abbrev Run (task : τ → Action α β) : Pool τ α β → Pool τ α β → Prop :=
  Relation.ReflTransGen (Step task)

/-- A pool is finished once no place is empty. -/
def Finished (pool : Pool τ α β) : Prop := ∀ entry ∈ pool.entries, entry.2 ≠ none

/-- The outcomes that are in their places, in the order of the tasks. -/
def outcomes (pool : Pool τ α β) : List (Except (Fault α) β) := pool.entries.filterMap (·.2)

/-- The tasks that have been carried out. -/
def done (pool : Pool τ α β) : List τ := (pool.entries.filter (·.2.isSome)).map (·.1)

/-! ## One order -/

/-- Carrying the tasks out one after the other is a run of a pool. -/
theorem run_mapM_attempt (task : τ → Action α β) (before : List (τ × Option (Except (Fault α) β)))
    (tasks : List τ) (session : Session α) :
    ∃ results after, (tasks.mapM (attempt task)).perform session = (.ok results, after) ∧
      results.length = tasks.length ∧
      Run task ⟨before ++ tasks.map fun t => (t, none), session⟩
        ⟨before ++ tasks.zip (results.map some), after⟩ := by
  induction tasks generalizing before session with
  | nil => exact ⟨[], session, rfl, rfl, .refl⟩
  | cons t tasks ih =>
    obtain ⟨results, after, hperform, hlength, hrun⟩ :=
      ih (before ++ [(t, some ((task t).perform session).1)]) ((task t).perform session).2
    refine ⟨((task t).perform session).1 :: results, after, ?_, congrArg (· + 1) hlength, ?_⟩
    · have hattempt : (attempt task t).perform session
          = (.ok ((task t).perform session).1, ((task t).perform session).2) := rfl
      rw [List.mapM_cons, perform_bind_ok hattempt, perform_bind_ok hperform]
      rfl
    · rw [List.append_assoc, List.append_assoc] at hrun
      exact .head (.carryOut before (tasks.map fun t => (t, none)) t session) hrun

/-- **The order of the list.** What several workers report and leave is what a finished pool reports and
leaves. -/
theorem exists_run_execute {workers : Int} (h : 1 < workers) (task : τ → Action α β) (tasks : List τ)
    (session : Session α) :
    ∃ pool, Run task (start tasks session) pool ∧ pool.Finished ∧
      Action.perform (execute workers id task tasks) session
        = (firstFault pool.outcomes, pool.session) := by
  obtain ⟨results, after, hperform, hlength, hrun⟩ := run_mapM_attempt task [] tasks session
  have hpool : (⟨tasks.zip (results.map some), after⟩ : Pool τ α β).outcomes = results := by
    have hplaces : (tasks.zip (results.map some)).map (·.2) = results.map some :=
      List.map_snd_zip (by simp [hlength])
    have hfilled := List.filterMap_map (f := Prod.snd) (g := id) (l := tasks.zip (results.map some))
    rw [hplaces, List.filterMap_map] at hfilled
    exact hfilled.symm.trans List.filterMap_some
  refine ⟨_, hrun, ?_, ?_⟩
  · rintro ⟨t, place⟩ hentry
    obtain ⟨result, -, rfl⟩ := List.mem_map.mp (List.of_mem_zip hentry).2
    exact Option.some_ne_none result
  · rw [List.nil_append, hpool, execute_of_several h, perform_bind_ok hperform]
    cases firstFault results <;> rfl

/-! ## Every order -/

variable [Memory] [Scalar α] {task : τ → Action α β} {outcome : τ → Except (Fault α) β}
  {called : τ → List (Point α)} {tasks : List τ} {session : Session α}

/-- **Sound pools.** What holds of a pool that was started with some tasks in some session: each place is empty
or has the outcome of its task, and the calls since then are those of the tasks that were carried out, in
some order. -/
structure SoundFrom (outcome : τ → Except (Fault α) β) (called : τ → List (Point α)) (tasks : List τ)
    (session : Session α) (pool : Pool τ α β) : Prop where
  tasks_eq : pool.entries.map (·.1) = tasks
  places : ∀ entry ∈ pool.entries, entry.2 = none ∨ entry.2 = some (outcome entry.1)
  calls : ∃ calls, pool.session.calls = session.calls ++ calls ∧
    calls.Perm (pool.done.flatMap called)
  cache : pool.session.cache.Sound

/-- A pool starts sound. -/
theorem soundFrom_start (hsound : session.cache.Sound) :
    SoundFrom outcome called tasks session (start tasks session) where
  tasks_eq := by rw [start, List.map_map]; exact List.map_id' tasks
  places := by
    intro entry hentry
    obtain ⟨t, -, rfl⟩ := List.mem_map.mp hentry
    exact .inl rfl
  calls := by
    have hnone : (start tasks session : Pool τ α β).done = [] := by
      rw [done, start, List.filter_map, List.map_map]
      simp
    exact ⟨[], (List.append_nil _).symm, by rw [hnone]; exact .refl _⟩
  cache := hsound

/-- **Step.** A pool stays sound. -/
theorem SoundFrom.step (h : ∀ t, Yields (task t) (outcome t) (called t)) {pool next : Pool τ α β}
    (hpool : SoundFrom outcome called tasks session pool) (hstep : Step task pool next) :
    SoundFrom outcome called tasks session next := by
  cases hstep with
  | carryOut before after t current =>
    obtain ⟨htasks, hplaces, ⟨calls, hcalls, hperm⟩, hcache⟩ := hpool
    obtain ⟨hout, hcalled, hsound⟩ := h t current hcache
    refine ⟨?_, ?_, ⟨calls ++ called t, ?_, ?_⟩, hsound⟩
    · rw [← htasks, List.map_append, List.map_append, List.map_cons, List.map_cons]
    · rw [List.forall_mem_append, List.forall_mem_cons] at hplaces ⊢
      exact ⟨hplaces.1, .inr (congrArg some hout), hplaces.2.2⟩
    · rw [hcalled, hcalls, List.append_assoc]
    · -- the task moves from the empty places to those that are filled
      have hdone : (done ⟨before ++ (t, some ((task t).perform current).1) :: after,
          ((task t).perform current).2⟩).Perm (t :: done ⟨before ++ (t, none) :: after, current⟩) := by
        simp only [done, List.filter_append, List.filter_cons, Option.isSome_some, Option.isSome_none,
          List.map_append, List.map_cons, if_true, Bool.false_eq_true, if_false]
        exact List.perm_middle
      refine .trans ?_ (hdone.flatMap_right called).symm
      rw [List.flatMap_cons]
      exact List.perm_append_comm.trans (hperm.append_left (called t))

/-- **Run.** A pool that runs stays sound. -/
theorem SoundFrom.run (h : ∀ t, Yields (task t) (outcome t) (called t)) {pool last : Pool τ α β}
    (hpool : SoundFrom outcome called tasks session pool) (hrun : Run task pool last) :
    SoundFrom outcome called tasks session last := by
  induction hrun with
  | refl => exact hpool
  | tail _ hstep ih => exact ih.step h hstep

/-- A finished pool has the outcomes of all tasks in their order. -/
theorem SoundFrom.outcomes_eq {pool : Pool τ α β}
    (hpool : SoundFrom outcome called tasks session pool) (hfinished : pool.Finished) :
    pool.outcomes = tasks.map outcome := by
  have hplaces : ∀ entry ∈ pool.entries, entry.2 = some (outcome entry.1) :=
    fun entry hentry => (hpool.places entry hentry).resolve_left (hfinished entry hentry)
  rw [outcomes, List.filterMap_congr hplaces, ← hpool.tasks_eq, List.map_map]
  exact congrFun List.filterMap_eq_map pool.entries

/-- A finished pool has carried all tasks out. -/
theorem SoundFrom.done_eq {pool : Pool τ α β} (hpool : SoundFrom outcome called tasks session pool)
    (hfinished : pool.Finished) : pool.done = tasks := by
  have hfilled : ∀ entry ∈ pool.entries, entry.2.isSome = true :=
    fun entry hentry => Option.isSome_iff_ne_none.mpr (hfinished entry hentry)
  rw [done, List.filter_eq_self.mpr hfilled, hpool.tasks_eq]

/-- **Any order.** However the tasks were taken up, a finished pool reports the outcome of the tasks in the
order of the list, and every task has made its calls once. -/
theorem report_eq (h : ∀ t, Yields (task t) (outcome t) (called t)) (hsound : session.cache.Sound)
    {pool : Pool τ α β} (hrun : Run task (start tasks session) pool) (hfinished : pool.Finished) :
    firstFault pool.outcomes = tasks.mapM outcome ∧
      ∃ calls, pool.session.calls = session.calls ++ calls ∧ calls.Perm (tasks.flatMap called) := by
  have hlast := (soundFrom_start hsound).run h hrun
  constructor
  · rw [hlast.outcomes_eq hfinished, firstFault_map]
  · rw [← hlast.done_eq hfinished]
    exact hlast.calls

end Pool

end FiniteDifference.Workers
