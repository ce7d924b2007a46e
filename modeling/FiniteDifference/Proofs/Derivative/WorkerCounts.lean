import FiniteDifference.Proofs.Derivative.Crews
import FiniteDifference.Proofs.Number.Comparisons

/-!
# Requests for workers

Any argument may be given as the number of workers.  Whatever it is, except an infinite number, it stands for
one worker at least and no more than there are tasks, and the derivatives do not depend on it.  The conversion
of an infinite number to a whole one is an overflow, which ends every derivative before its first call.
-/

open FiniteDifference.Action

namespace FiniteDifference

/-! ## Actions alike -/

section Alike

variable [Memory] {α β γ : Type} [Scalar α]

/-- **Actions alike.** Two actions with one outcome on all sound caches, whatever their calls are. -/
def Action.Alike (a a' : Action α β) : Prop :=
  ∃ outcome calls calls', Yields a outcome calls ∧ Yields a' outcome calls'

namespace Action

theorem Composed.alike {a : Action α β} (h : Composed a) : Alike a a := by
  obtain ⟨outcome, calls, hyields⟩ := h.transparent
  exact ⟨outcome, calls, calls, hyields, hyields⟩

/-- Sequences of actions alike are alike. -/
theorem Alike.bind {a a' : Action α β} {f f' : β → Action α γ} (h : Alike a a')
    (hf : ∀ b, Alike (f b) (f' b)) : Alike (a >>= f) (a' >>= f') := by
  obtain ⟨outcome, calls, calls', ha, ha'⟩ := h
  cases outcome with
  | error fault => exact ⟨.error fault, calls, calls', ha.bind_error, ha'.bind_error⟩
  | ok b =>
    obtain ⟨outcome, further, further', hb, hb'⟩ := hf b
    exact ⟨outcome, calls ++ further, calls' ++ further', ha.bind hb, ha'.bind hb'⟩

theorem Alike.outcome_after {a a' : Action α β} (h : Alike a a') (history : List (Operation α)) :
    (a.perform (Session.after history)).1 = (a'.perform (Session.after history)).1 := by
  obtain ⟨outcome, calls, calls', ha, ha'⟩ := h
  rw [ha.outcome_after history, ha'.outcome_after history]

end Action

variable {crew crew' : Crew α} {n n' : ℤ} (hn : Workers.available crew.machine crew.request = .ok n)
  (hn' : Workers.available crew'.machine crew'.request = .ok n')
include hn hn'

/-- Estimates from samples of one function at the same points are alike, however many workers there are. -/
theorem Sampling.Estimates.alike {f : SampledFunction α} {places : Except (Fault α) (List (Point α))}
    {estimate : List α → Except (Fault α) α} {a a' : Action α α}
    (h : Estimates crew f places estimate a) (h' : Estimates crew' f places estimate a') :
    Alike a a' :=
  ⟨_, _, _, h.yields_of_available hn, h'.yields_of_available hn'⟩

theorem Univariate.alike_valueWith (f : SampledFunction α) (s : Stencil) (x h : Argument α) :
    Alike (valueWith f s crew x h) (valueWith f s crew' x h) :=
  (estimates_valueWith f s crew x h).alike hn hn' (estimates_valueWith f s crew' x h)

/-- Derivatives in one variable by two crews are alike, also with a chosen bandwidth. -/
theorem Univariate.alike_valueChoosing {choose : α → Action α (Argument α)}
    (hchoose : ∀ x, Composed (choose x)) (f : SampledFunction α) (s : Stencil) (x : Argument α) :
    Alike (valueChoosing choose f s crew x) (valueChoosing choose f s crew' x) :=
  (Composed.ofExcept _).alike.bind fun x =>
    (hchoose x).alike.bind fun _ =>
      (Composed.ofExcept _).alike.bind fun _ =>
        (Composed.note _ rfl).alike.bind fun _ => alike_valueWith hn hn' f s _ _

theorem Multivariate.alike_valueWith (f : SampledFunction α) (t : Tensor) (point h : Argument α) :
    Alike (valueWith f t crew point h) (valueWith f t crew' point h) :=
  (estimates_valueWith f t crew point h).alike hn hn' (estimates_valueWith f t crew' point h)

/-- Mixed derivatives by two crews are alike, also with chosen bandwidths. -/
theorem Multivariate.alike_valueChoosing {choose : List α → Action α (Argument α)}
    (hchoose : ∀ x, Composed (choose x)) (f : SampledFunction α) (t : Tensor) (point : Argument α) :
    Alike (valueChoosing choose f t crew point) (valueChoosing choose f t crew' point) :=
  (Composed.ofExcept _).alike.bind fun x =>
    (Composed.ofExcept _).alike.bind fun _ =>
      (hchoose x).alike.bind fun _ =>
        (Composed.ofExcept _).alike.bind fun _ =>
          (Composed.note _ rfl).alike.bind fun _ => alike_valueWith hn hn' f t _ _

end Alike

/-! ## Numbers of workers -/

/-- **Infinite numbers,** of either sign. -/
def Argument.IsInfinite : Argument Float → Prop
  | .real x => Binary64.magnitudeWord x = Binary64.infinityWord
  | _ => False

namespace Workers

variable {request : Argument Float}

/-- An infinite number is not converted to a whole one. -/
theorem available_of_infinite (machine : Machine) (h : request.IsInfinite) :
    available machine request = .error (.tooLarge .infiniteCount) := by
  cases request with
  | real x =>
    have hword : Binary64.magnitudeWord x = Binary64.infinityWord := h
    have hvalue : Scalar.toRat? x = none := Binary64.toRat?_eq_none_iff.mpr hword.ge
    have hmissing : ¬Scalar.isMissing x = true := by
      rw [Binary64.isMissing_iff]
      exact hword.not_gt
    have hwhole : whole? (.real x) = .error (.tooLarge .infiniteCount) := by
      rw [whole?, hvalue]
      exact if_neg hmissing
    show normalize (.real x) = _
    rw [normalize, hwhole]
    rfl
  | _ => exact h.elim

/-- Any other argument is, and what stands for no number is one worker. -/
theorem exists_available (machine : Machine) (h : ¬request.IsInfinite) :
    ∃ n, available machine request = .ok n := by
  cases request with
  | real x =>
    cases hvalue : Scalar.toRat? x with
    | some q =>
      refine ⟨max 1 (q.num.tdiv q.den), ?_⟩
      show normalize (.real x) = _
      rw [normalize, whole?, hvalue]
      rfl
    | none =>
      have hword : Binary64.infinityWord ≤ Binary64.magnitudeWord x :=
        Binary64.toRat?_eq_none_iff.mp hvalue
      have hmissing : Scalar.isMissing x = true :=
        Binary64.isMissing_iff.mpr (lt_of_le_of_ne hword fun heq => h heq.symm)
      refine ⟨1, ?_⟩
      show normalize (.real x) = _
      rw [normalize, whole?, hvalue]
      dsimp only
      rw [if_pos hmissing]
      rfl
  | _ => exact ⟨_, rfl⟩

variable [Memory]

/-- **Any request for workers.** Unless an infinite number is requested, there is one worker at least, there are
no more of them than tasks, and the outcomes of all derivatives, with given and with chosen bandwidths, are
those of a single worker.  If an infinite number is requested, the number of workers is an overflow, and so is
every derivative with given bandwidths whose points are found; the function is not called for it. -/
theorem derivatives_for_any_request (machine : Machine) (request : Argument Float) :
    let crew : Crew Float := ⟨request, machine⟩
    (¬request.IsInfinite →
      (∀ tasks : ℤ, ∃ w, resolve machine request tasks = .ok w ∧ 1 ≤ w ∧ w ≤ max 1 tasks) ∧
      ∀ (history : List (Operation Float)) (f : SampledFunction Float),
        let start := Session.after history
        (∀ (s : Stencil) (strategy : AxisStrategy Float) (x h : Argument Float),
          ((UnivariateEvaluator.valueWithBandwidth ⟨f, s, strategy, crew⟩ x h).perform start).1
            = ((UnivariateEvaluator.valueWithBandwidth ⟨f, s, strategy, .single⟩ x h).perform
                start).1) ∧
        (∀ (s : Stencil) (strategy : AxisStrategy Float) (x : Argument Float),
          ((UnivariateEvaluator.value ⟨f, s, strategy, crew⟩ x).perform start).1
            = ((UnivariateEvaluator.value ⟨f, s, strategy, .single⟩ x).perform start).1) ∧
        (∀ (t : Tensor) (strategy : VectorStrategy Float) (point h : Argument Float),
          ((MultivariateEvaluator.valueWithBandwidth ⟨f, t, strategy, crew⟩ point h).perform start).1
            = ((MultivariateEvaluator.valueWithBandwidth ⟨f, t, strategy, .single⟩ point h).perform
                start).1) ∧
        ∀ (t : Tensor) (strategy : VectorStrategy Float) (point : Argument Float),
          ((MultivariateEvaluator.value ⟨f, t, strategy, crew⟩ point).perform start).1
            = ((MultivariateEvaluator.value ⟨f, t, strategy, .single⟩ point).perform start).1) ∧
    (request.IsInfinite →
      (∀ tasks : ℤ, resolve machine request tasks = .error (.tooLarge .infiniteCount)) ∧
      ∀ (history : List (Operation Float)) (f : SampledFunction Float),
        let start := Session.after history
        (∀ (s : Stencil) (strategy : AxisStrategy Float) (x h : Argument Float),
          let result := (UnivariateEvaluator.valueWithBandwidth ⟨f, s, strategy, crew⟩ x h).perform start
          result.1 = (Univariate.places s x h >>= fun _ => .error (.tooLarge .infiniteCount)) ∧
            result.2.calls = start.calls) ∧
        ∀ (t : Tensor) (strategy : VectorStrategy Float) (point h : Argument Float),
          let result :=
            (MultivariateEvaluator.valueWithBandwidth ⟨f, t, strategy, crew⟩ point h).perform start
          result.1 = (Multivariate.places t point h >>= fun _ => .error (.tooLarge .infiniteCount)) ∧
            result.2.calls = start.calls) := by
  intro crew
  constructor
  · intro hfinite
    obtain ⟨n, hn⟩ : ∃ n, available crew.machine crew.request = .ok n :=
      exists_available machine hfinite
    have hone : available (Crew.single : Crew Float).machine (Crew.single : Crew Float).request = .ok 1 :=
      rfl
    refine ⟨fun tasks => ⟨max 1 (min n tasks), Sampling.resolve_of_available hn tasks,
      le_max_left _ _, max_le_max_left 1 (min_le_right n tasks)⟩, fun history f => ⟨?_, ?_, ?_, ?_⟩⟩
    · intro s strategy x h
      exact (Univariate.alike_valueWith hn hone f s x h).outcome_after history
    · intro s strategy x
      exact (Univariate.alike_valueChoosing hn hone (fun _ => strategy.composed_choose f _ _) f s
        x).outcome_after history
    · intro t strategy point h
      exact (Multivariate.alike_valueWith hn hone f t point h).outcome_after history
    · intro t strategy point
      exact (Multivariate.alike_valueChoosing hn hone (fun _ => strategy.composed_choose f _ _) f t
        point).outcome_after history
  · intro hinfinite
    have hfault : available crew.machine crew.request = .error (.tooLarge .infiniteCount) :=
      available_of_infinite machine hinfinite
    refine ⟨fun tasks => resolve_of_unavailable hfault tasks, fun history f => ⟨?_, ?_⟩⟩
    · intro s strategy x h
      obtain ⟨hout, hcalls, -⟩ := (Univariate.estimates_valueWith f s crew x
        h).yields_of_unavailable hfault _ (Session.sound_after history)
      exact ⟨hout, hcalls.trans (List.append_nil _)⟩
    · intro t strategy point h
      obtain ⟨hout, hcalls, -⟩ := (Multivariate.estimates_valueWith f t crew point
        h).yields_of_unavailable hfault _ (Session.sound_after history)
      exact ⟨hout, hcalls.trans (List.append_nil _)⟩

/-- Infinity as a request for workers. -/
def infinity : Argument Float := .real (Binary64.ofWord Binary64.infinityWord)

omit [Memory] in
theorem isInfinite_infinity : infinity.IsInfinite := by
  show Binary64.magnitudeWord (Binary64.ofWord Binary64.infinityWord) = Binary64.infinityWord
  decide +kernel

omit [Memory] in
/-- A thousand workers are requested for three tasks, and infinitely many. -/
theorem resolve_thousand :
    (∃ w, resolve default (.int 1000 : Argument Float) 3 = .ok w ∧ 1 ≤ w ∧ w ≤ 3) ∧
      resolve default infinity 3 = .error (.tooLarge .infiniteCount) :=
  letI : Memory := .ample
  ⟨((derivatives_for_any_request default (.int 1000)).1 id).1 3,
    ((derivatives_for_any_request default infinity).2 isInfinite_infinity).1 3⟩

omit [Memory] in
/-- So not every request is a number of workers. -/
theorem not_resolved_at_infinity :
    ¬∀ (machine : Machine) (request : Argument Float) (tasks : ℤ), 0 ≤ tasks →
      ∃ w, resolve machine request tasks = .ok w ∧ 1 ≤ w ∧ w ≤ max 1 tasks := by
  intro hall
  obtain ⟨w, hw, -⟩ := hall default infinity 3 (by decide)
  cases hw.symm.trans (resolve_of_unavailable
    (available_of_infinite default isInfinite_infinity) 3)

end Workers

end FiniteDifference
