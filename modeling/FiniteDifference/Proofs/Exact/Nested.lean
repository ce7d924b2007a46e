import FiniteDifference.Proofs.Exact.Exactness

/-!
# Nested evaluators

The evaluator for one variable can be applied along one axis after the other: along the first axis to the
function whose values are the derivatives along the later axes.  In exact arithmetic this is what the
evaluator for several variables gives, for every function, whenever the grid points can be counted.
-/

open FiniteDifference.Action

namespace FiniteDifference

variable [Memory]

/-! ## Functions that may fail -/

namespace SampledFunction

variable {α : Type} [Scalar α]

/-- **Functions that may fail.** The sampled function that gives the outcome of a function of numbers. -/
def ofPartial (g : α → Except (Fault α) α) : SampledFunction α :=
  .rule fun p => do return .number (← g (← coordinate p))

omit [Memory] [Scalar α] in
theorem ofPartial_ok (g : α → α) : ofPartial (fun y => .ok (g y)) = ofScalar g := by
  refine congrArg SampledFunction.rule (funext fun p => ?_)
  cases p <;> rfl

/-- A function that may fail is called once at a number, also if it fails there. -/
theorem yields_call_ofPartial (g : α → Except (Fault α) α) (y : α) :
    Yields ((ofPartial g).call (.number y)) ((g y).map .number) [.number y] := by
  have hcall := yields_call_rule (fun p => do return .number (← g (← coordinate p))) (.number y)
  have hvalue : (do return .number (← g (← coordinate (.number y))))
      = (g y).map Sample.number := by
    show (g y >>= fun z => pure (Sample.number z)) = _
    cases g y with
    | error fault => rfl
    | ok z => rfl
  rw [hvalue] at hcall
  exact hcall

end SampledFunction

/-- Tasks that all fail with one fault have this fault, for any number of workers. -/
theorem Workers.outcome_execute_of_error {α β τ : Type} [Scalar α] {task : τ → Action α β}
    {fault : Fault α} {called : τ → List (Point α)}
    (h : ∀ t, Yields (task t) (.error fault) (called t)) (workers : Int) {tasks : List τ}
    (hne : tasks ≠ []) : ∃ calls, Yields (execute workers id task tasks) (.error fault) calls := by
  obtain ⟨t, rest, rfl⟩ := List.exists_cons_of_ne_nil hne
  by_cases hw : 1 < workers
  · -- several workers attempt all tasks, and the first outcome is a fault
    rw [execute_of_several hw]
    exact ⟨_, Yields.bind_silent (Yields.mapM_ok (fun t => (h t).attempt) (t :: rest))
      (Yields.ofExcept _)⟩
  · rw [execute_of_single hw, List.mapM_cons]
    exact ⟨_, Yields.bind_error (h t)⟩

namespace Univariate

variable [FractionalPower]

/-- A function that fails everywhere with one fault gives this fault. -/
theorem outcome_valueWith_of_error {f : SampledFunction ℚ} {fault : Fault ℚ}
    (hf : ∀ y, Yields (f.call (.number y)) (.error fault) [.number y]) {s : Stencil}
    (hroom : s.length < Memory.room) (crew : Crew ℚ) (x : ℚ) {h : ℚ} (hh : 0 < h) :
    ∃ calls, Yields (valueWith f s crew (.real x) (.real h)) (.error fault) calls := by
  obtain ⟨workers, hworkers⟩ := Exact.exists_resolve crew.machine crew.request
    ((sampledOffsets s s.coefficients).map (pointAt x h)).length
  have hne : (sampledOffsets s s.coefficients).map (pointAt x h) ≠ [] :=
    mt List.map_eq_nil_iff.mp (sampledOffsets_ne_nil s)
  -- every point of the grid is a number, so the function fails wherever it is called
  have hcall : ∀ o, Yields (f.call (pointAt x h o)) (.error fault) [pointAt x h o] := fun o => hf _
  have hrun : Workers.execute workers id f.call ((sampledOffsets s s.coefficients).map (pointAt x h))
      = Workers.execute workers id (fun o => f.call (pointAt x h o))
          (sampledOffsets s s.coefficients) := by
    simp only [Workers.execute, List.mapM_map, Function.comp_def]
  obtain ⟨calls, hexecute⟩ :=
    Workers.outcome_execute_of_error hcall workers (sampledOffsets_ne_nil s)
  have hvalues : Yields (Sampling.values crew f
      ((sampledOffsets s s.coefficients).map (pointAt x h))) (.error fault) calls := by
    rw [Sampling.values, if_neg (by simpa using hne), hworkers]
    refine Yields.silent_bind (b := workers) (Yields.ofExcept _) (Yields.bind_error ?_)
    rw [hrun]
    exact hexecute
  exact ⟨calls, yields_valueWith_of_samples (b := Exact.positive h hh) rfl
    (Exact.requirePositive_real hh "bandwidth") hroom hvalues⟩

end Univariate

variable [FractionalPower]

/-! ## One axis after the other -/

/-- **Nested derivatives.** What the evaluator for one variable answers along the first axis, for the
function whose values are the nested derivatives along the later axes with the coordinates in front
held. -/
def nestedDerivative (session : Session ℚ) (strategy : AxisStrategy ℚ) (crew : Crew ℚ) :
    List Stencil → List ℚ → List ℚ → (List ℚ → ℚ) → Except (Fault ℚ) ℚ
  | s :: axes, x :: xs, h :: hs, f =>
    ((UnivariateEvaluator.valueWithBandwidth
        ⟨.ofPartial fun y => nestedDerivative session strategy crew axes xs hs fun ys => f (y :: ys),
          s, strategy, crew⟩ (.real x) (.real h)).perform session).1
  | _, _, _, f => .ok (f [])

/-- **Nested estimates.** If all grids can be counted, the nested derivatives are the nested estimates,
unless there is no room for the grid of an axis.  By induction on the axes: the first axis samples a
function that gives an estimate everywhere or has the fault of a later axis everywhere. -/
theorem nestedDerivative_eq {session : Session ℚ} (hsound : session.cache.Sound)
    (strategy : AxisStrategy ℚ) (crew : Crew ℚ) {axes : List Stencil}
    (hcount : ∀ s ∈ axes, s.length < RowMajor.sizeBound) {xs hs : List ℚ}
    (hx : xs.length = axes.length) (hh : hs.length = axes.length) (hpos : ∀ h ∈ hs, 0 < h)
    (f : List ℚ → ℚ) :
    nestedDerivative session strategy crew axes xs hs f =
      if ∀ s ∈ axes, s.length < Memory.room then .ok (nestedEstimate axes xs hs f)
      else .error .noRoom := by
  induction axes generalizing xs hs f with
  | nil =>
    rw [if_pos (List.forall_mem_nil _)]
    rfl
  | cons s axes ih =>
    obtain ⟨x, xs, rfl⟩ := List.exists_cons_of_length_eq_add_one hx
    obtain ⟨h, hs, rfl⟩ := List.exists_cons_of_length_eq_add_one hh
    rw [List.forall_mem_cons] at hcount hpos
    have hlater : ∀ y, _ := fun y =>
      ih hcount.2 (Nat.succ.inj hx) (Nat.succ.inj hh) hpos.2 fun ys => f (y :: ys)
    simp only [nestedDerivative, hlater, List.forall_mem_cons]
    by_cases hroom : s.length < Memory.room
    · by_cases hrest : ∀ s ∈ axes, s.length < Memory.room
      · obtain ⟨calls, hvalue⟩ := Univariate.outcome_valueWith
          (fun y => nestedEstimate axes xs hs fun ys => f (y :: ys)) s crew x hpos.1
        rw [(s.listedOffsets_eq_ok_iff s.offsets).mpr ⟨hroom, rfl⟩,
          ← SampledFunction.ofPartial_ok] at hvalue
        simp only [if_pos hrest, if_pos (And.intro hroom hrest)]
        exact (hvalue session hsound).1
      · -- a later axis has no room, so the function fails wherever the first axis samples it
        obtain ⟨calls, hvalue⟩ := Univariate.outcome_valueWith_of_error
          (SampledFunction.yields_call_ofPartial fun _ => .error .noRoom) hroom crew x hpos.1
        simp only [if_neg hrest, if_neg fun hall => hrest (And.right hall)]
        exact (hvalue session hsound).1
    · rw [if_neg fun hall => hroom hall.1]
      have hlisted : (s.listedOffsets : Except (Fault ℚ) (List ℤ)) = .error .noRoom := by
        rw [Stencil.listedOffsets, if_neg (Nat.not_le.mpr hcount.1), if_pos (Nat.not_lt.mp hroom)]
      exact (Univariate.yields_valueWith_of_error _ hlisted crew x hpos.1 session hsound).1

omit [Memory] [FractionalPower] in
theorem Tensor.length_lt_sizeBound {t : Tensor} (hsize : t.size < RowMajor.sizeBound) :
    ∀ s ∈ t.axes, s.length < RowMajor.sizeBound :=
  fun _ hs => (t.length_le_size hs).trans_lt hsize

/-- The derivative in several variables is the nested derivative, unless there are too many grid
points. -/
theorem Multivariate.outcome_valueWith_eq_nested {session : Session ℚ}
    (hsound : session.cache.Sound) (along : AxisStrategy ℚ) (inner : Crew ℚ) (f : List ℚ → ℚ)
    (t : Tensor) (crew : Crew ℚ) {xs hs : List ℚ} (hx : xs.length = t.dimension)
    (hh : hs.length = t.dimension) (hpos : ∀ h ∈ hs, 0 < h) :
    ∃ calls, Yields (valueWith (.ofVector f) t crew (Argument.ofReals xs) (Argument.ofReals hs))
      (if t.size < RowMajor.sizeBound then nestedDerivative session along inner t.axes xs hs f
      else .error (.tooLarge .size)) calls := by
  obtain ⟨calls, hvalue⟩ := outcome_valueWith f t crew hx hh hpos
  refine ⟨calls, ?_⟩
  by_cases hsize : t.size < RowMajor.sizeBound
  · rw [if_pos hsize] at hvalue ⊢
    rw [nestedDerivative_eq hsound along inner (Tensor.length_lt_sizeBound hsize) hx hh hpos f]
    exact hvalue
  · rw [if_neg hsize] at hvalue ⊢
    exact hvalue

/-- **The evaluator for several variables is the iterated one for a single variable.** After any histories,
for every function: with given bandwidths the evaluator for several variables has the outcome of the nested
derivative, unless there are too many grid points; this is a value if there is room for the grid of every
axis.  Along a single axis the two evaluators agree. -/
theorem valueWithBandwidth_eq_nestedDerivative (history earlier : List (Operation ℚ)) :
    (∀ (t : Tensor) (strategy : VectorStrategy ℚ) (along : AxisStrategy ℚ) (crew inner : Crew ℚ)
        (f : List ℚ → ℚ) (x h : Fin t.dimension → ℚ), (∀ a, 0 < h a) →
      ((MultivariateEvaluator.valueWithBandwidth ⟨.ofVector f, t, strategy, crew⟩
          (Argument.ofReals (List.ofFn x)) (Argument.ofReals (List.ofFn h))).perform
          (Session.after history)).1 =
        (if t.size < RowMajor.sizeBound then
          nestedDerivative (Session.after earlier) along inner t.axes (List.ofFn x) (List.ofFn h) f
        else .error (.tooLarge .size)) ∧
      ((∀ s ∈ t.axes, s.length < Memory.room) →
        ∃ y, nestedDerivative (Session.after earlier) along inner t.axes (List.ofFn x) (List.ofFn h) f
          = .ok y)) ∧
    (∀ (s : Stencil) (strategy : VectorStrategy ℚ) (along : AxisStrategy ℚ) (crew inner : Crew ℚ)
        (f : List ℚ → ℚ) (x h : ℚ), 0 < h → s.length < RowMajor.sizeBound →
      ((MultivariateEvaluator.valueWithBandwidth ⟨.ofVector f, .single s, strategy, crew⟩
          (Argument.ofReals [x]) (Argument.ofReals [h])).perform (Session.after history)).1 =
        ((UnivariateEvaluator.valueWithBandwidth ⟨.ofScalar fun y => f [y], s, along, inner⟩
          (.real x) (.real h)).perform (Session.after earlier)).1) := by
  have hsound := Session.sound_after earlier
  refine ⟨fun t strategy along crew inner f x h hpos => ?_,
    fun s strategy along crew inner f x h hpos hlength => ?_⟩
  · have hlist : ∀ b ∈ List.ofFn h, 0 < b := by
      intro b hb
      obtain ⟨a, rfl⟩ := (List.mem_ofFn' h b).mp hb
      exact hpos a
    obtain ⟨calls, hyields⟩ := Multivariate.outcome_valueWith_eq_nested hsound along inner f t crew
      (List.length_ofFn (f := x)) (List.length_ofFn (f := h)) hlist
    refine ⟨hyields.outcome_after history, fun hroom => ?_⟩
    rw [nestedDerivative_eq hsound along inner (fun s hs => (hroom s hs).trans Memory.room_lt)
      (List.length_ofFn (f := x)) (List.length_ofFn (f := h)) hlist f, if_pos hroom]
    exact ⟨_, rfl⟩
  · have hsize : (Tensor.single s).size < RowMajor.sizeBound := by
      show s.length * 1 < RowMajor.sizeBound
      rwa [mul_one]
    obtain ⟨calls, hyields⟩ := Multivariate.outcome_valueWith_eq_nested hsound along inner f
      (.single s) crew (show [x].length = (Tensor.single s).dimension from rfl)
      (show [h].length = (Tensor.single s).dimension from rfl) (by simpa using hpos)
    have hnested := hyields.outcome_after history
    rw [if_pos hsize] at hnested
    -- behind a single axis there is nothing but the value of the function
    refine hnested.trans ?_
    rw [← SampledFunction.ofPartial_ok]
    rfl

omit [Memory] [FractionalPower] in
/-- A function with a jump, with two different stencils and bandwidths along its two axes. -/
theorem nestedDerivative_jump :
    letI : Memory := .ample
    letI : FractionalPower := ⟨fun _ _ => 0⟩
    ((MultivariateEvaluator.valueWithBandwidth
        ⟨.ofVector fun ys => if ys.getD 0 0 < ys.getD 1 0 then ys.getD 0 0 else 7, centralForward,
          .fixed [], Crew.single⟩
        (Argument.ofReals (List.ofFn ![3, 3])) (Argument.ofReals (List.ofFn ![1 / 2, 1 / 4]))).perform
        (Session.after [])).1
      = nestedDerivative (Session.after []) (.fixed Exact.unit) Crew.single
          centralForward.axes [3, 3] [1 / 2, 1 / 4]
          (fun ys => if ys.getD 0 0 < ys.getD 1 0 then ys.getD 0 0 else 7) ∧
    ((MultivariateEvaluator.valueWithBandwidth
        ⟨.ofVector fun ys => if ys.getD 0 0 < 3 then 1 else 7, .single .twoPointBackward, .fixed [],
          Crew.single⟩ (Argument.ofReals [3]) (Argument.ofReals [1 / 2])).perform (Session.after [])).1
      = ((UnivariateEvaluator.valueWithBandwidth
          ⟨.ofScalar fun y => if y < 3 then 1 else 7, .twoPointBackward,
            .fixed Exact.unit, Crew.single⟩
          (.real 3) (.real (1 / 2))).perform (Session.after [])).1 := by
  let : Memory := .ample
  let : FractionalPower := ⟨fun _ _ => 0⟩
  obtain ⟨hseveral, hsingle⟩ := valueWithBandwidth_eq_nestedDerivative [] []
  constructor
  · have hjump := (hseveral centralForward (.fixed []) (.fixed Exact.unit) Crew.single
      Crew.single (fun ys => if ys.getD 0 0 < ys.getD 1 0 then ys.getD 0 0 else 7) ![3, 3]
      ![1 / 2, 1 / 4] (fun a : Fin 2 => by fin_cases a <;> norm_num)).1
    rw [if_pos (by decide)] at hjump
    exact hjump
  · exact hsingle .twoPointBackward (.fixed []) (.fixed Exact.unit) Crew.single
      Crew.single (fun ys => if ys.getD 0 0 < 3 then 1 else 7) 3 (1 / 2) (by norm_num) (by decide)

omit [Memory] [FractionalPower] in
/-- Without a bound on the number of grid points the two differ: along 64 axes with two points each there is
a nested derivative, but no grid. -/
theorem not_nested_along_sixtyFourAxes :
    letI : Memory := .ample
    letI : FractionalPower := ⟨fun _ _ => 0⟩
    ¬∀ (t : Tensor) (strategy : VectorStrategy ℚ) (along : AxisStrategy ℚ) (crew inner : Crew ℚ)
        (f : List ℚ → ℚ) (x h : Fin t.dimension → ℚ), (∀ a, 0 < h a) →
      ((MultivariateEvaluator.valueWithBandwidth ⟨.ofVector f, t, strategy, crew⟩
          (Argument.ofReals (List.ofFn x)) (Argument.ofReals (List.ofFn h))).perform
          Session.empty).1 =
        nestedDerivative Session.empty along inner t.axes (List.ofFn x) (List.ofFn h) f := by
  let : Memory := .ample
  let : FractionalPower := ⟨fun _ _ => 0⟩
  intro hnested
  have hpos : ∀ h ∈ List.ofFn fun _ : Fin sixtyFourAxes.dimension => (1 : ℚ), 0 < h := by simp
  have hequal := hnested sixtyFourAxes (.fixed []) (.fixed Exact.unit) Crew.single
    Crew.single (fun _ => 1) (fun _ => 0) (fun _ => 1) (fun _ => one_pos)
  have hyields := Multivariate.yields_valueWith_of_tooLarge (.ofVector fun _ => (1 : ℚ))
    (t := sixtyFourAxes) (by decide +kernel) Crew.single
    (List.length_ofFn (f := fun _ : Fin sixtyFourAxes.dimension => (0 : ℚ)))
    (List.length_ofFn (f := fun _ : Fin sixtyFourAxes.dimension => (1 : ℚ))) hpos
  have htwo : ∀ s ∈ sixtyFourAxes.axes, s.length = 2 := by
    intro s hs
    rw [List.eq_of_mem_replicate hs]
    rfl
  have hcount : ∀ s ∈ sixtyFourAxes.axes, s.length < RowMajor.sizeBound := by
    intro s hs
    rw [htwo s hs]
    decide
  have hvalue := nestedDerivative_eq (show Session.empty.cache.Sound from Cache.sound_empty)
    (.fixed Exact.unit) Crew.single hcount
    (List.length_ofFn (f := fun _ : Fin sixtyFourAxes.dimension => (0 : ℚ)))
    (List.length_ofFn (f := fun _ : Fin sixtyFourAxes.dimension => (1 : ℚ))) hpos (fun _ => 1)
  have hroom : ∀ s ∈ sixtyFourAxes.axes, s.length < Memory.ample.room := by
    intro s hs
    rw [htwo s hs]
    decide
  rw [if_pos hroom] at hvalue
  have hfault := (hyields.outcome_after []).symm.trans (hequal.trans hvalue)
  cases hfault

end FiniteDifference
