import FiniteDifference.Proofs.Derivative.Crews
import FiniteDifference.Proofs.Evaluation.Divisors

/-!
# Checks before calls

The arguments of a derivative are checked before the function is called, and again when the grid is evaluated.
An argument that is refused is refused by the first checks, and the later ones, which also compare the number
of samples with the number of coefficients, always pass.
-/

open FiniteDifference.Action

namespace FiniteDifference

variable {α : Type}

/-! ## Faults that are no rejections -/

variable [Scalar α] {fault : Fault α}

/-- The number of workers is not rejected. -/
theorem Workers.not_isRejection_of_available {machine : Machine} {request : Argument α}
    (h : available machine request = .error fault) : ¬fault.IsRejection := by
  have hnormalize : normalize request = .error fault := by
    cases request with
    | absent => cases h
    | _ => exact h
  rcases bind_eq_error.mp hnormalize with hwhole | ⟨_, -, hpure⟩
  · cases request with
    | real x =>
      rw [whole?] at hwhole
      split at hwhole
      · cases hwhole
      · split at hwhole <;> cases hwhole
        exact Fault.not_isRejection_of_kind .overflow (by decide) rfl
    | _ => cases hwhole
  · cases hpure

namespace Evaluation

variable [Memory]

/-- Accepted arguments are not rejected. -/
theorem IsAccepted.not_isRejection {d : Descriptor} {samples : List α} {bandwidth : Argument α}
    (h : IsAccepted d samples bandwidth) (hfault : outcome d samples bandwidth = .error fault) :
    ¬fault.IsRejection := by
  rcases h.eq_or_kind_of_error hfault with rfl | hkind
  · exact Fault.not_isRejection_of_kind .zeroDivision (by decide) rfl
  · exact Fault.not_isRejection_of_kind .overflow (by decide) hkind

/-- **Second checks.** With a checked bandwidth and a sample for each of the grid points, which can be counted,
no check fails: either the coefficients are found and all arguments are accepted, or there is no room for
them. -/
theorem not_isRejection_of_outcome {d : Descriptor} {samples : List α} {bandwidth : Argument α}
    (hchecked : IsChecked d bandwidth) (hsize : d.size < RowMajor.sizeBound)
    (hlen : samples.length = d.size) (hfault : outcome d samples bandwidth = .error fault) :
    ¬fault.IsRejection := by
  cases hgen : (d.generated : Except (Fault α) (List ℚ)) with
  | ok exact =>
    have haccepted : IsAccepted d samples bandwidth := by
      refine ⟨⟨exact.map Scalar.nearest, ?_, ?_⟩, hchecked⟩
      · rw [Cache.generatedScalars, hgen]
        rfl
      · rw [List.length_map, Descriptor.length_of_generated hgen, hlen]
    exact haccepted.not_isRejection hfault
  | error other =>
    rcases Descriptor.noRoom_or_uncounted hgen with rfl | huncounted
    · rw [outcome, Cache.generatedScalars, hgen] at hfault
      cases hfault
      exact Fault.not_isRejection_of_kind .memory (by decide) rfl
    · exact absurd hsize (Nat.not_lt.mpr huncounted)

end Evaluation

variable [Memory]

/-- Whatever the samples are, their grid in one variable is not rejected. -/
theorem Univariate.not_isRejection_of_ofSamples {s : Stencil} {x h : Argument α} {points : List (Point α)}
    (hplaces : places s x h = .ok points) {samples : List α}
    (hfault : ofSamples s h samples = .error fault) : ¬fault.IsRejection := by
  obtain ⟨_, b, -, hb, hroom, -⟩ := exists_of_places hplaces
  rw [ofSamples, hb] at hfault
  refine Evaluation.not_isRejection_of_outcome (d := .axis s) ⟨b, Validation.requirePositive_val b "bandwidth"⟩
    (hroom.trans Memory.room_lt) ?_ hfault
  rw [length_spread, s.length_coefficients]
  rfl

/-- Samples at all of the points are not rejected in several variables. -/
theorem Multivariate.not_isRejection_of_outcome {t : Tensor} {point h : Argument α}
    {points : List (Point α)} (hplaces : places t point h = .ok points) {samples : List α}
    (hlen : samples.length = points.length)
    (hfault : Evaluation.outcome (.tensor t) samples h = .error fault) : ¬fault.IsRejection := by
  obtain ⟨grid, hgrid, rfl⟩ := exists_of_places hplaces
  obtain ⟨⟨-, hchecked⟩, hsize, hgridlen⟩ := exists_of_gridPoints hgrid
  refine Evaluation.not_isRejection_of_outcome (d := .tensor t) hchecked hsize ?_ hfault
  rw [hlen, List.length_map, hgridlen]
  rfl

/-! ## Derivatives -/

/-- **Checks first.** What checking its arguments first means for a derivative of a function at some places: if
they are not accepted, the places are not found, which is the fault, and there is no call; if they are, a
rejection is raised by the function itself, at the first place where it fails. -/
structure ChecksFirst (accepted : Prop) (f : SampledFunction α)
    (places : Except (Fault α) (List (Point α))) (start : Session α)
    (result : Except (Fault α) α × Session α) : Prop where
  refused : ¬accepted →
    (∃ fault, places = .error fault ∧ result.1 = .error fault) ∧ result.2.calls = start.calls
  raised : accepted → ∀ fault, result.1 = .error fault → fault.IsRejection →
    ∃ before p after, places = .ok (before ++ p :: after) ∧
      (∀ q ∈ before, ∃ y, f.answer q = .ok y) ∧ f.answer p = .error fault

namespace Sampling

omit [Memory] in
/-- There is a sample for each place. -/
theorem exists_of_outcomeOf {f : SampledFunction α} {places : Except (Fault α) (List (Point α))}
    {samples : List α} (h : outcomeOf f.answer places = .ok samples) :
    ∃ points, places = .ok points ∧ samples.length = points.length := by
  obtain ⟨points, hplaces, hrest⟩ := bind_eq_ok.mp h
  obtain ⟨answers, hanswers, hgather⟩ := bind_eq_ok.mp hrest
  exact ⟨points, hplaces, (length_of_gather hgather).trans (mapM_eq_ok.mp hanswers).length_eq.symm⟩

omit [Memory] in
/-- A rejection among samples is raised by the function itself. -/
theorem raised_of_outcomeOf {f : SampledFunction α} {places : Except (Fault α) (List (Point α))}
    (hplaces : places = .error fault → ¬fault.IsRejection)
    (h : outcomeOf f.answer places = .error fault) (hrejection : fault.IsRejection) :
    ∃ before p after, places = .ok (before ++ p :: after) ∧
      (∀ q ∈ before, ∃ y, f.answer q = .ok y) ∧ f.answer p = .error fault := by
  rcases bind_eq_error.mp h with hfault | ⟨points, hpoints, hrest⟩
  · exact absurd hrejection (hplaces hfault)
  rcases bind_eq_error.mp hrest with hanswers | ⟨_, -, hgather⟩
  · obtain ⟨before, p, after, rfl, hbefore, hp⟩ := mapM_eq_error_iff.mp hanswers
    exact ⟨before, p, after, hpoints, hbefore, hp⟩
  · exact absurd hrejection (not_isRejection_of_gather hgather)

/-- **Estimates check first** if their places and what is computed from the samples do so. -/
theorem Estimates.checksFirst {crew : Crew α} {f : SampledFunction α}
    {places : Except (Fault α) (List (Point α))} {estimate : List α → Except (Fault α) α}
    {a : Action α α} (h : Estimates crew f places estimate a) {accepted : Prop}
    (hrefused : ¬accepted → ∃ fault, places = .error fault)
    (hplaces : accepted → ∀ fault, places = .error fault → ¬fault.IsRejection)
    (hestimate : ∀ samples, outcomeOf f.answer places = .ok samples →
      ∀ fault, estimate samples = .error fault → ¬fault.IsRejection)
    {start : Session α} (hsound : start.cache.Sound) :
    ChecksFirst accepted f places start (a.perform start) where
  refused hnot := by
    obtain ⟨fault, hfault⟩ := hrefused hnot
    obtain ⟨hout, hcalls, -⟩ := h.of_error fault hfault start hsound
    exact ⟨⟨fault, hfault, hout⟩, hcalls.trans (List.append_nil _)⟩
  raised haccepted fault hfault hrejection := by
    cases havailable : Workers.available crew.machine crew.request with
    | ok n =>
      rw [(h.yields_of_available havailable start hsound).1] at hfault
      rcases bind_eq_error.mp hfault with hsamples | ⟨samples, hsamples, hout⟩
      · exact raised_of_outcomeOf (hplaces haccepted fault) hsamples hrejection
      · exact absurd hrejection (hestimate samples hsamples fault hout)
    | error other =>
      rw [(h.yields_of_unavailable havailable start hsound).1] at hfault
      rcases bind_eq_error.mp hfault with hfound | ⟨points, -, hother⟩
      · exact absurd hrejection (hplaces haccepted fault hfound)
      · cases hother
        exact absurd hrejection (Workers.not_isRejection_of_available havailable)

end Sampling

/-- The places of arguments that are not accepted are not found. -/
theorem Univariate.exists_places_eq_error {x h : Argument α} (hnot : ¬Accepts x h) (s : Stencil) :
    ∃ fault, places s x h = .error fault := by
  cases hplaces : places s x h with
  | error fault => exact ⟨fault, rfl⟩
  | ok points =>
    obtain ⟨t, b, hx, hh, -, -⟩ := exists_of_places hplaces
    exact absurd ⟨⟨t, hx⟩, b, hh⟩ hnot

omit [Memory] in
/-- Nor are those in several variables. -/
theorem Multivariate.exists_places_eq_error {t : Tensor} {point h : Argument α}
    (hnot : ¬Accepts t point h) : ∃ fault, places t point h = .error fault := by
  cases hplaces : places t point h with
  | error fault => exact ⟨fault, rfl⟩
  | ok points =>
    obtain ⟨grid, hgrid, -⟩ := exists_of_places hplaces
    exact absurd (exists_of_gridPoints hgrid).1 hnot

/-- **Checks precede calls.** After any history, for every function and crew and for arguments of any kind:
a derivative in one or in several variables whose point, bandwidths or dimensions are not accepted fails
without a call; one whose arguments are accepted, and so each one that makes a call, is rejected only by the
function itself.  When the grid is evaluated, with any samples that were gathered and the bandwidth that was
checked before, the checks of the length, the dimension and the bandwidths do not fail.  A function is a pure
rule here and an argument a fixed value: the derivative in several variables reads the bandwidths that it was
given again after sampling, so a function that changes them meanwhile is outside of this statement. -/
theorem checks_precede_calls (history : List (Operation α)) (f : SampledFunction α) (crew : Crew α) :
    let start := Session.after history
    (∀ (s : Stencil) (strategy : AxisStrategy α) (x h : Argument α),
      ChecksFirst (Univariate.Accepts x h) f (Univariate.places s x h) start
        ((UnivariateEvaluator.valueWithBandwidth ⟨f, s, strategy, crew⟩ x h).perform start)) ∧
    (∀ (t : Tensor) (strategy : VectorStrategy α) (point h : Argument α),
      ChecksFirst (Multivariate.Accepts t point h) f (Multivariate.places t point h) start
        ((MultivariateEvaluator.valueWithBandwidth ⟨f, t, strategy, crew⟩ point h).perform start)) ∧
    (∀ (s : Stencil) (x h : Argument α) (samples : List α) (b : Positive α) (fault : Fault α),
      Sampling.outcomeOf f.answer (Univariate.places s x h) = .ok samples →
      Validation.requirePositive h "bandwidth" = .ok b →
      ((Evaluation.grid (.descriptor (.axis s))
          (Argument.ofReals (Univariate.spread s.coefficients samples)) (.real b.val)).perform start).1
        = .error fault → ¬fault.IsRejection) ∧
    ∀ (t : Tensor) (point h : Argument α) (samples : List α) (fault : Fault α),
      Sampling.outcomeOf f.answer (Multivariate.places t point h) = .ok samples →
      ((Evaluation.grid (.descriptor (.tensor t)) (Argument.ofReals samples) h).perform start).1
        = .error fault → ¬fault.IsRejection := by
  intro start
  have hsound : start.cache.Sound := Session.sound_after history
  refine ⟨fun s strategy x h => ?_, fun t strategy point h => ?_,
    fun s x h samples b fault hsamples hb hfault => ?_, fun t point h samples fault hsamples hfault => ?_⟩
  · refine (Univariate.estimates_valueWith f s crew x h).checksFirst
      (fun hnot => Univariate.exists_places_eq_error hnot s)
      (fun haccepts _ => Univariate.not_isRejection_of_places haccepts)
      (fun samples hsamples fault hfault => ?_) hsound
    obtain ⟨points, hplaces, -⟩ := Sampling.exists_of_outcomeOf hsamples
    exact Univariate.not_isRejection_of_ofSamples hplaces hfault
  · refine (Multivariate.estimates_valueWith f t crew point h).checksFirst
      Multivariate.exists_places_eq_error
      (fun haccepts _ => Multivariate.not_isRejection_of_places haccepts)
      (fun samples hsamples fault hfault => ?_) hsound
    obtain ⟨points, hplaces, hlen⟩ := Sampling.exists_of_outcomeOf hsamples
    exact Multivariate.not_isRejection_of_outcome hplaces hlen hfault
  · obtain ⟨points, hplaces, -⟩ := Sampling.exists_of_outcomeOf hsamples
    rw [(Evaluation.yields_grid (.axis s) _ (.real b.val) start hsound).1] at hfault
    have hsecond : Univariate.ofSamples s h samples = .error fault := by
      rw [Univariate.ofSamples, hb]
      exact hfault
    exact Univariate.not_isRejection_of_ofSamples hplaces hsecond
  · obtain ⟨points, hplaces, hlen⟩ := Sampling.exists_of_outcomeOf hsamples
    rw [(Evaluation.yields_grid (.tensor t) samples h start hsound).1] at hfault
    exact Multivariate.not_isRejection_of_outcome hplaces hlen hfault

omit [Memory] in
/-- A truth value as the bandwidth and a point without coordinates are refused, and the function, which would
reject every point itself, is not called. -/
theorem refused_without_call :
    letI : Memory := .ample
    letI : Scalar ℚ := Scalar.exact fun _ _ => 0
    let f : SampledFunction ℚ := .rule fun _ => .error (.invalid (.missing "x"))
    let strategy : AxisStrategy ℚ := .fixed ⟨1, rfl⟩
    ((UnivariateEvaluator.valueWithBandwidth ⟨f, .threePointCentral, strategy, .single⟩ (.real 0)
        (.bool true)).perform (Session.after [])).2.calls = [] ∧
      ((MultivariateEvaluator.valueWithBandwidth
        ⟨f, .single .threePointCentral, .axisWise strategy, .single⟩ (Argument.ofReals [])
        (Argument.ofReals [1])).perform (Session.after [])).2.calls = [] := by
  let : Memory := .ample
  let : Scalar ℚ := Scalar.exact fun _ _ => 0
  intro f strategy
  obtain ⟨hone, hseveral, -, -⟩ := checks_precede_calls [] f .single
  refine ⟨((hone .threePointCentral strategy (.real 0) (.bool true)).refused ?_).2,
    ((hseveral (.single .threePointCentral) (.axisWise strategy) (Argument.ofReals [])
      (Argument.ofReals [1])).refused ?_).2⟩
  · rintro ⟨-, b, hb⟩
    cases hb
  · rintro ⟨⟨xs, hxs, hlen⟩, -⟩
    cases (Validation.requirePoint_ofReals [] "point").symm.trans hxs
    cases hlen

end FiniteDifference
