import FiniteDifference.Proofs.Argument.Vectors
import FiniteDifference.Proofs.Bandwidth.Confined
import FiniteDifference.Proofs.Cache.Returns
import FiniteDifference.Proofs.Outcomes
import FiniteDifference.Proofs.Sampling.Single
import FiniteDifference.Scalar.Exact
import Mathlib.Data.Rat.Init

/-!
# One axis after the other

A strategy for one variable is asked for each axis in turn, with the slice of the function through the point
along this axis.  The first answer that is missing or not positive ends the request.  Whatever the strategy
samples, it samples at points that differ from the given one in the coordinate of the axis only.
-/

open FiniteDifference.Action

namespace FiniteDifference

variable [Memory] {α τ β : Type} [Scalar α]

/-! ## Tasks in order -/

/-- Transparent tasks are performed one after the other up to the first one that fails, each in the session
that the one before has left. -/
theorem Action.perform_mapM {task : τ → Action α β} (h : ∀ t, Transparent (task t)) (tasks : List τ)
    {session : Session α} (hsound : session.cache.Sound) :
    (tasks.mapM task).perform session
      = (tasks.mapM fun t => (task t).freshOutcome,
        (untilFault (fun t => (task t).freshOutcome) tasks).foldl
          (fun session t => ((task t).perform session).2) session) := by
  induction tasks generalizing session with
  | nil => rfl
  | cons t tasks ih =>
    obtain ⟨hout, -, hsound'⟩ := (h t).yields session hsound
    rw [List.mapM_cons, List.mapM_cons, untilFault, List.foldl_cons]
    cases hfirst : (task t).freshOutcome with
    | error fault =>
      rw [perform_bind_error (Prod.ext (hout.trans hfirst) rfl)]
      rfl
    | ok b =>
      rw [perform_bind_ok (Prod.ext (hout.trans hfirst) rfl)]
      have hrest := ih hsound'
      cases hresults : tasks.mapM fun t => (task t).freshOutcome with
      | error fault =>
        rw [hresults] at hrest
        exact perform_bind_error hrest
      | ok bs =>
        rw [hresults] at hrest
        exact perform_bind_ok hrest

/-! ## Slices -/

/-- **Points along an axis.** The vectors that differ from a given one in one coordinate at most. -/
def Point.Along (xs : List α) (axis : ℕ) (p : Point α) : Prop :=
  ∃ ys, p = .vector ys ∧ ys.length = xs.length ∧ ∀ j, j ≠ axis → ys[j]? = xs[j]?

omit [Memory] [Scalar α] in
theorem Point.along_set (xs : List α) (axis : ℕ) (x : α) :
    Point.Along xs axis (.vector (xs.set axis x)) :=
  ⟨_, rfl, List.length_set, fun _ hj => List.getElem?_set_ne hj.symm⟩

namespace SampledFunction

/-- A function that is called at a vector is called nowhere else. -/
theorem confined_call_vector {P : Point α → Prop} (f : SampledFunction α) {xs : List α}
    (h : P (.vector xs)) : Confined P (f.call (.vector xs)) := by
  cases f with
  | rule value => exact .bind (.recordCall h) fun _ => .ofExcept _
  | notFunction given => exact .ofExcept (.error _)
  | slice whole axis fixed => exact .silent (Yields.bind_error (Yields.ofExcept (.error _)))

/-- **Slices** are called along their axis. -/
theorem confined_call_slice (f : SampledFunction α) (axis : ℕ) (xs : List α) (p : Point α) :
    Confined (Point.Along xs axis) ((slice f axis xs).call p) :=
  .bind (.ofExcept _) fun x => f.confined_call_vector (Point.along_set xs axis x)

omit [Memory] in
theorem sliceOf_ofReals (f : SampledFunction α) {xs : List α} {axis : ℕ} (haxis : axis < xs.length) :
    sliceOf f (.int axis) (Argument.ofReals xs) = .ok (.slice f axis xs) := by
  have hinside : ¬((axis : Int) < 0 ∨ (xs.length : Int) ≤ axis) := by omega
  rw [sliceOf, Argument.toBlock_ofReals]
  exact if_neg hinside

end SampledFunction

/-! ## Consulting a strategy -/

namespace VectorStrategy

/-- **Axes at a point.** The stencil and the coordinate of each axis, and its number. -/
def axesAt (t : Tensor) (xs : List α) : List ((Stencil × α) × ℕ) := (t.axes.zip xs).zipIdx

omit [Memory] [Scalar α] in
/-- Each number up to the dimension is that of one axis. -/
theorem getElem?_axesAt (t : Tensor) (xs : List α) (i : ℕ) (axis : (Stencil × α) × ℕ) :
    (axesAt t xs)[i]? = some axis ↔
      axis.2 = i ∧ t.axes[i]? = some axis.1.1 ∧ xs[i]? = some axis.1.2 := by
  obtain ⟨entry, number⟩ := axis
  rw [axesAt, List.getElem?_zipIdx, Option.map_eq_some_iff, Nat.zero_add]
  constructor
  · rintro ⟨entry, hentry, heq⟩
    cases heq
    exact ⟨rfl, List.getElem?_zip_eq_some.mp hentry⟩
  · rintro ⟨rfl, hentry⟩
    exact ⟨entry, List.getElem?_zip_eq_some.mpr hentry, rfl⟩

/-- **Asking for an axis.** The strategy for one variable is asked with the slice along the axis, the stencil
of the axis and the coordinate of the point. -/
def ask (inner : AxisStrategy α) (f : SampledFunction α) (xs : List α) (axis : (Stencil × α) × ℕ) :
    Action α (Argument α) :=
  inner.choose (.slice f axis.2 xs) (.descriptor (.axis axis.1.1)) (.real axis.1.2)

/-- **Accepted answers.** An answer must be positive; a fault names the axis. -/
def accept (axis : ℕ) (answer : Argument α) : Except (Fault α) α :=
  (Validation.requirePositive answer (axisName axis)).map (·.val)

/-- **Consulting for an axis.** The answer must be accepted. -/
def consult (inner : AxisStrategy α) (f : SampledFunction α) (xs : List α)
    (axis : (Stencil × α) × ℕ) : Action α α :=
  ask inner f xs axis >>= fun answer => Action.ofExcept (accept axis.2 answer)

/-- The bandwidths along the axes are those of consulting for one axis after the other. -/
theorem chooseAlong_eq_mapM (inner : AxisStrategy α) (f : SampledFunction α) (xs : List α) (axis : ℕ)
    (rest : List (Stencil × α)) :
    chooseAlong inner f xs axis rest = (rest.zipIdx axis).mapM (consult inner f xs) := by
  induction rest generalizing axis with
  | nil => rfl
  | cons entry rest ih =>
    rw [chooseAlong, List.zipIdx_cons, List.mapM_cons, ← ih, consult, bind_assoc]
    refine congrArg (ask inner f xs (entry, axis) >>= ·) (funext fun answer => ?_)
    dsimp only
    rw [accept]
    cases Validation.requirePositive answer (axisName axis) <;> rfl

theorem transparent_ask (inner : AxisStrategy α) (f : SampledFunction α) (xs : List α)
    (axis : (Stencil × α) × ℕ) : Transparent (ask inner f xs axis) :=
  (inner.composed_choose _ _ _).transparent

/-- What is called when a strategy is asked for an axis lies along this axis. -/
theorem confined_ask (inner : AxisStrategy α) (f : SampledFunction α) (xs : List α)
    (axis : (Stencil × α) × ℕ) : Confined (Point.Along xs axis.2) (ask inner f xs axis) :=
  inner.confined_choose (f.confined_call_slice axis.2 xs) _ _

theorem transparent_consult (inner : AxisStrategy α) (f : SampledFunction α) (xs : List α)
    (axis : (Stencil × α) × ℕ) : Transparent (consult inner f xs axis) :=
  (transparent_ask inner f xs axis).bind fun _ => (Yields.ofExcept _).transparent

theorem freshOutcome_consult (inner : AxisStrategy α) (f : SampledFunction α) (xs : List α)
    (axis : (Stencil × α) × ℕ) :
    (consult inner f xs axis).freshOutcome = (ask inner f xs axis).freshOutcome >>= accept axis.2 :=
  freshOutcome_bind_of_yields (transparent_ask inner f xs axis) fun _ => Yields.ofExcept _

/-- Consulting leaves the session that asking leaves. -/
theorem perform_consult (inner : AxisStrategy α) (f : SampledFunction α) (xs : List α)
    (axis : (Stencil × α) × ℕ) (session : Session α) :
    ((consult inner f xs axis).perform session).2 = ((ask inner f xs axis).perform session).2 := by
  rw [consult]
  cases hout : (ask inner f xs axis).perform session with
  | mk outcome after =>
    cases outcome with
    | error fault => rw [perform_bind_error hout]
    | ok answer =>
      rw [perform_bind_ok hout]
      cases accept axis.2 answer <;> rfl

/-- At a point with as many coordinates, the axes are consulted with their stencils and coordinates. -/
theorem choosePerAxis_eq_mapM (inner : AxisStrategy α) (f : SampledFunction α)
    {descriptor point : Argument α} {t : Tensor} {xs : List α} (ht : descriptor.tensor = .ok t)
    (hpoint : Validation.requirePoint point "point" = .ok xs) (hdimension : xs.length = t.dimension) :
    choosePerAxis inner f descriptor point = (axesAt t xs).mapM (consult inner f xs) := by
  have hsize : (Validation.checkSize xs.length t.dimension "point dimension" : Except (Fault α) Unit)
      = .ok () := if_pos hdimension
  rw [choosePerAxis, hpoint, ht, axesAt, ← chooseAlong_eq_mapM]
  show (Action.ofExcept (Validation.checkSize xs.length t.dimension "point dimension") >>= fun _ =>
    chooseAlong inner f xs 0 (t.axes.zip xs)) = _
  rw [hsize, ofExcept_ok_bind]

/-- **The bandwidths of a tensor stencil** at a point are found one axis after the other, up to the first one
without an accepted answer. -/
theorem perform_choose_axisWise (inner : AxisStrategy α) (f : SampledFunction α) {t : Tensor}
    {point : Argument α} {xs : List α} (hpoint : Validation.requirePoint point "point" = .ok xs)
    (hdimension : xs.length = t.dimension) {session : Session α} (hsound : session.cache.Sound) :
    ((axisWise inner).choose f (.descriptor (.tensor t)) point).perform session
      = (((axesAt t xs).mapM fun axis => (consult inner f xs axis).freshOutcome).map
          Argument.ofReals,
        (untilFault (fun axis => (consult inner f xs axis).freshOutcome) (axesAt t xs)).foldl
          (fun session axis => ((ask inner f xs axis).perform session).2) session) := by
  have hperform := perform_mapM (transparent_consult inner f xs) (axesAt t xs) hsound
  simp only [perform_consult] at hperform
  rw [choose, choosePerAxis_eq_mapM inner f rfl hpoint hdimension]
  cases hanswers : (axesAt t xs).mapM fun axis => (consult inner f xs axis).freshOutcome with
  | error fault =>
    rw [hanswers] at hperform
    exact perform_bind_error hperform
  | ok hs =>
    rw [hanswers] at hperform
    exact perform_bind_ok hperform

/-- **Slices along the axes.** After every history, for every strategy for one variable, every function and
every tensor stencil, at a point with as many coordinates: if all answers along the axes are accepted, they
are the vector, and the strategy has been asked for all axes in order.  Otherwise the fault of the first axis
without an accepted answer is that of the request, and the strategy has not been asked for any later axis.
For each axis it is asked with the slice of the function through the point along this axis, and answers the
same from every session; whatever it calls meanwhile differs from the point in the coordinate of this axis
only.  A foreign strategy is a stateless consultation of the slice that it is handed: it remembers nothing from
one request to the next and reaches the function through the slice alone. -/
theorem axisWise_asks_slices (history : List (Operation α)) (inner : AxisStrategy α)
    (f : SampledFunction α) (t : Tensor) {point : Argument α} {xs : List α}
    (hpoint : Validation.requirePoint point "point" = .ok xs) (hdimension : xs.length = t.dimension) :
    let start := Session.after history
    let run := ((axisWise inner).choose f (.descriptor (.tensor t)) point).perform start
    let asked (axes : List ((Stencil × α) × ℕ)) :=
      axes.foldl (fun session axis => ((ask inner f xs axis).perform session).2) start
    let accepted (axis : (Stencil × α) × ℕ) :=
      ((ask inner f xs axis).perform start).1 >>= accept axis.2
    (axesAt t xs).length = t.dimension ∧
    (∀ (i : ℕ) (axis : (Stencil × α) × ℕ), (axesAt t xs)[i]? = some axis ↔
      axis.2 = i ∧ t.axes[i]? = some axis.1.1 ∧ xs[i]? = some axis.1.2) ∧
    (∀ hs, List.Forall₂ (fun axis h => accepted axis = .ok h) (axesAt t xs) hs →
      run = (.ok (Argument.ofReals hs), asked (axesAt t xs))) ∧
    (∀ before axis later fault, axesAt t xs = before ++ axis :: later →
      (∀ earlier ∈ before, ∃ h, accepted earlier = .ok h) → accepted axis = .error fault →
        run = (.error fault, asked (before ++ [axis]))) ∧
    ∀ axis ∈ axesAt t xs,
      SampledFunction.sliceOf f (.int axis.2) (Argument.ofReals xs) = .ok (.slice f axis.2 xs) ∧
      (∀ y, (SampledFunction.slice f axis.2 xs).call (.number y) = f.call (.vector (xs.set axis.2 y))) ∧
      ∀ session : Session α, session.cache.Sound →
        ((ask inner f xs axis).perform session).1 = ((ask inner f xs axis).perform start).1 ∧
        ((ask inner f xs axis).perform session).2.cache.Sound ∧
        ∃ calls, ((ask inner f xs axis).perform session).2.calls = session.calls ++ calls ∧
          ∀ p ∈ calls, Point.Along xs axis.2 p := by
  intro start run asked accepted
  have hsound : start.cache.Sound := Session.sound_after history
  have hasked : ∀ axis, ((ask inner f xs axis).perform start).1 = (ask inner f xs axis).freshOutcome :=
    fun axis => ((transparent_ask inner f xs axis).yields start hsound).1
  have haccepted : (fun axis => (consult inner f xs axis).freshOutcome) = accepted :=
    funext fun axis => by rw [freshOutcome_consult, ← hasked]
  have hrun := perform_choose_axisWise inner f hpoint hdimension hsound
  rw [haccepted] at hrun
  refine ⟨?_, getElem?_axesAt t xs, fun hs haccept => ?_,
    fun before axis later fault haxes hbefore hfault => ?_,
    fun axis haxis => ⟨?_, fun y => rfl, fun session hsession => ?_⟩⟩
  · rw [axesAt, List.length_zipIdx, List.length_zip, hdimension]
    exact Nat.min_self _
  · have hall := mapM_eq_ok.mpr haccept
    rw [hall, untilFault_of_forall_ok (exists_ok_of_mapM hall)] at hrun
    exact hrun
  · rw [haxes, mapM_append_cons_eq_error hbefore hfault, untilFault_append_cons hbefore hfault] at hrun
    exact hrun
  · obtain ⟨i, haxis⟩ := List.mem_iff_getElem?.mp haxis
    obtain ⟨rfl, -, hx⟩ := (getElem?_axesAt t xs i axis).mp haxis
    exact f.sliceOf_ofReals (List.getElem?_eq_some_iff.mp hx).1
  · obtain ⟨hout, hcalls, hafter⟩ := (transparent_ask inner f xs axis).yields session hsession
    exact ⟨hout.trans (hasked axis).symm, hafter, _, hcalls,
      (confined_ask inner f xs axis).forall_mem (transparent_ask inner f xs axis).yields⟩

/-! ## A point with a negative coordinate -/

/-- The foreign strategy that samples its function at zero and answers the coordinate. -/
def echo : Foreign ℚ := ⟨"Echo", "", fun _ x => .sample (.number 0) fun _ => .answer x⟩

/-- A tensor stencil with three axes. -/
def threeAxes : Tensor := ⟨[.threePointCentral, .twoPointForward, .value], List.cons_ne_nil _ _⟩

omit [Memory] in
/-- Coordinates are no bandwidths if one of them is negative.  The axes up to this one have been sampled at
the points whose own coordinate is zero. -/
theorem axisWise_asks_slices_echo :
    letI : Memory := .ample
    letI : Scalar ℚ := Scalar.exact fun _ _ => 0
    let run := ((axisWise (.foreign echo)).choose (.rule fun _ => .ok .absent)
      (.descriptor (.tensor threeAxes)) (Argument.ofReals [3, -5, 7])).perform (Session.after [])
    Validation.requirePoint (Argument.ofReals [(3 : ℚ), -5, 7]) "point" = .ok [3, -5, 7] ∧
      [(3 : ℚ), -5, 7].length = threeAxes.dimension ∧
      run.1 = .error (.invalid (.notPositive (axisName 1) (-5))) ∧
      run.2.calls = [.vector [0, -5, 7], .vector [3, 0, 7]] := by
  let : Memory := .ample
  let : Scalar ℚ := Scalar.exact fun _ _ => 0
  intro run
  have hpoint := Validation.requirePoint_ofReals [(3 : ℚ), -5, 7] "point"
  obtain ⟨-, -, -, hfault, -⟩ := axisWise_asks_slices [] (.foreign echo) (.rule fun _ => .ok .absent)
    threeAxes hpoint rfl
  have hrun := hfault [((.threePointCentral, 3), 0)] ((.twoPointForward, -5), 1) [((.value, 7), 2)]
    (.invalid (.notPositive (axisName 1) (-5))) rfl
    (List.forall_mem_singleton.mpr ⟨3, ?_⟩) ?_
  · exact ⟨hpoint, rfl, congrArg Prod.fst hrun, congrArg (·.2.calls) hrun⟩
  · rfl
  · rfl

end VectorStrategy

end FiniteDifference
