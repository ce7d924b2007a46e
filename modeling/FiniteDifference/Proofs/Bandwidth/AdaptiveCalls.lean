import FiniteDifference.Proofs.Bandwidth.Confined
import FiniteDifference.Proofs.Cache.Returns
import FiniteDifference.Proofs.Derivative.Crews
import FiniteDifference.Proofs.Exact.Scaling
import FiniteDifference.Proofs.Outcomes

/-!
# What an adaptive bandwidth costs

The adaptive strategy samples its function with two bandwidths where the coefficients of the stencil are not
zero, and then once at the point itself, unless the truncation coefficient is below the machine epsilon.  So
a request that succeeds costs twice the sampled offsets, or one call more.
-/

open FiniteDifference.Action

namespace FiniteDifference

/-! ## The number of sampled offsets -/

namespace Stencil

/-- **Vanishing coefficients.** The number of offsets with the coefficient zero: one for central stencils of
odd order, none for all others. -/
def vanishing (s : Stencil) : ℕ := if s.placement = .central ∧ s.order % 2 = 1 then 1 else 0

end Stencil

/-- All offsets are sampled but those with the coefficient zero. -/
theorem Univariate.length_sampledOffsets (s : Stencil) :
    (sampledOffsets s s.coefficients).length = s.length - s.vanishing := by
  rw [sampledOffsets_eq_filter, Stencil.vanishing]
  by_cases hcentral : s.placement = .central ∧ s.order % 2 = 1
  · have hzero : ∀ o : ℤ, (¬(s.placement = .central ∧ s.order % 2 = 1 ∧ o = 0)) ↔ o ≠ 0 := by
      intro o
      rw [← and_assoc, and_iff_right hcentral]
    simp only [hzero, if_pos hcentral]
    rw [← s.length_offsets, ← List.length_erase_of_mem s.zero_mem_offsets,
      s.nodup_offsets.erase_eq_filter]
    refine congrArg List.length (List.filter_congr fun o _ => ?_)
    rw [← Bool.coe_iff_coe, decide_eq_true_iff, bne_iff_ne]
  · have hall : ∀ o : ℤ, ¬(s.placement = .central ∧ s.order % 2 = 1 ∧ o = 0) :=
      fun o h => hcentral ⟨h.1, h.2.1⟩
    rw [if_neg hcentral, Nat.sub_zero, ← s.length_offsets]
    exact congrArg List.length (List.filter_eq_self.mpr fun o _ => decide_eq_true (hall o))

variable {α : Type} [Scalar α]

/-! ## Calls of a derivative that succeeds -/

/-- Samples are there if the points are found and the rule fails at none of them. -/
theorem Sampling.outcomeOf_eq_ok {value : Point α → Except (Fault α) (Sample α)}
    {places : Except (Fault α) (List (Point α))} {ys : List α}
    (h : outcomeOf value places = .ok ys) :
    ∃ points, places = .ok points ∧ ∀ p ∈ points, ∃ y, value p = .ok y := by
  obtain ⟨points, hplaces, hsamples⟩ := bind_eq_ok.mp h
  obtain ⟨samples, hvalues, -⟩ := bind_eq_ok.mp hsamples
  exact ⟨points, hplaces, exists_ok_of_mapM hvalues⟩

/-- What is read as a number is the point at this number. -/
theorem Sampling.pointOf_of_toScalar {x : Argument α} {t : α} (ht : x.toScalar = .ok t) :
    pointOf x = .ok (.number t) := by
  cases x with
  | list items => cases ht
  | absent => cases ht
  | _ => exact congrArg (Except.map Point.number) ht

namespace Adaptive

/-- **Calls of a derivative.** The points with a given bandwidth where the coefficients are not zero. -/
def gridCalls (s : Stencil) (exact : List ℚ) (t h : α) : List (Point α) :=
  (Univariate.sampledOffsets s exact).map (Univariate.pointAt t h)

theorem length_gridCalls (s : Stencil) (t h : α) :
    (gridCalls s s.coefficients t h).length = s.length - s.vanishing := by
  rw [gridCalls, List.length_map, Univariate.length_sampledOffsets]

variable {value : Point α → Except (Fault α) (Sample α)} {s : Stencil} {x : Argument α}
  {calls : List (Point α)}

variable [Memory]

/-- A derivative with a given bandwidth that succeeds has called the rule once at each sampled offset, in
order. -/
theorem calls_of_valueWith {crew : Crew α} {n : ℤ}
    (hn : Workers.available crew.machine crew.request = .ok n) {t : α} {h : Positive α} {d : α}
    (hyields : Yields (Univariate.valueWith (.rule value) s crew (.real t) (.real h.val)) (.ok d) calls) :
    Coefficients.ofStencil (α := α) s = .ok s.coefficients ∧
      calls = gridCalls s s.coefficients t h.val := by
  obtain ⟨hout, rfl⟩ := hyields.unique (Univariate.yields_valueWith_rule value hn s _ _)
  obtain ⟨samples, hsamples, -⟩ := bind_eq_ok.mp hout.symm
  obtain ⟨points, hplaces, hok⟩ := Sampling.outcomeOf_eq_ok hsamples
  rw [hplaces, Sampling.callsOf_of_forall_ok n hok, Coefficients.ofStencil_eq_map]
  rw [Univariate.places, Validation.requirePositive_val] at hplaces
  cases hlisted : (s.listedOffsets : Except (Fault α) (List ℤ)) with
  | error fault =>
    rw [hlisted] at hplaces
    cases hplaces
  | ok offsets =>
    rw [hlisted] at hplaces
    exact ⟨rfl, (Except.ok.inj hplaces).symm⟩

/-- So has a derivative with a fixed bandwidth. -/
theorem calls_of_derivative {h d : α}
    (hyields : Yields (derivative (.rule value) (.descriptor (.axis s)) x h) (.ok d) calls) :
    ∃ t, x.toScalar = .ok t ∧ Coefficients.ofStencil (α := α) s = .ok s.coefficients ∧
      calls = gridCalls s s.coefficients t h := by
  obtain ⟨b, hb, hyields⟩ := hyields.of_ofExcept_bind
  obtain ⟨s', hs, hyields⟩ := hyields.of_ofExcept_bind
  obtain ⟨_, -, hyields⟩ := hyields.of_ofExcept_bind
  obtain ⟨t, ht, hyields⟩ := hyields.of_ofExcept_bind
  obtain ⟨answer, hanswer, hyields⟩ := hyields.of_ofExcept_bind
  obtain ⟨b', hb', hyields⟩ := hyields.of_ofExcept_bind
  -- the fixed strategy answers the checked bandwidth, which the derivative checks once more
  obtain rfl : s = s' := Except.ok.inj hs
  obtain rfl : .real b.val = answer := Except.ok.inj hanswer
  obtain rfl : b = b' :=
    Except.ok.inj ((Validation.requirePositive_val b "bandwidth").symm.trans hb')
  have hvalue := hyields.of_silent_bind (Yields.note _)
    (Univariate.composed_valueWith (.rule value) s Crew.single _ _).transparent
  obtain ⟨hexact, hcalls⟩ := calls_of_valueWith (n := 1) rfl hvalue
  rw [Validation.positive_eq_ok_iff.mp hb] at hcalls
  exact ⟨t, ht, hexact, hcalls⟩

/-- **Coefficients from derivatives.** The last part of the estimate of a truncation coefficient, from the
derivatives with two bandwidths. -/
def coefficientOf (s : Stencil) (h₁ h₂ d₁ d₂ : α) : Action α α := do
  let s ← Action.ofExcept (Univariate.requireStencil (.descriptor (.axis s)))
  let p₁ ← Action.ofExcept (Evaluation.power h₁ s.accuracy (.tooLarge .function))
  let p₂ ← Action.ofExcept (Evaluation.power h₂ s.accuracy (.tooLarge .function))
  Action.ofExcept (Evaluation.quotient (d₂ - d₁) (p₁ - p₂))

/-- This part calls no function. -/
theorem confined_coefficientOf {P : Point α → Prop} (s : Stencil) (h₁ h₂ d₁ d₂ : α) :
    Confined P (coefficientOf s h₁ h₂ d₁ d₂) :=
  .bind (.ofExcept _) fun _ => .bind (.ofExcept _) fun _ => .bind (.ofExcept _) fun _ => .ofExcept _

/-- An estimate of the truncation coefficient that succeeds has called the rule with the larger bandwidth and
then with the smaller one. -/
theorem calls_of_truncationCoefficient {config : AdaptiveConfig α} {h₂ c : α}
    (hyields : Yields (truncationCoefficient config (.rule value) (.descriptor (.axis s)) x (.real h₂))
      (.ok c) calls) :
    ∃ t, x.toScalar = .ok t ∧ Coefficients.ofStencil (α := α) s = .ok s.coefficients ∧
      calls = gridCalls s s.coefficients t (h₂ * config.stepRatio.val)
        ++ gridCalls s s.coefficients t h₂ := by
  obtain ⟨b, hb, hyields⟩ := hyields.of_ofExcept_bind
  have hval : b.val = h₂ := Validation.positive_eq_ok_iff.mp hb
  have hlast : ∀ d₁ d₂, Confined (fun _ => False)
      (coefficientOf s (b.val * config.stepRatio.val) b.val d₁ d₂) :=
    fun d₁ d₂ => confined_coefficientOf s _ _ d₁ d₂
  have hderivative : ∀ h, Transparent (derivative (.rule value) (.descriptor (.axis s)) x h) :=
    fun h => (composed_derivative _ _ _ h).transparent
  obtain ⟨d₁, first, rest, hfirst, hrest, rfl⟩ := hyields.of_bind (hderivative _) fun d₁ =>
    (hderivative _).bind fun d₂ => (hlast d₁ d₂).transparent
  obtain ⟨d₂, second, last, hsecond, hquotient, rfl⟩ := hrest.of_bind (hderivative _) fun d₂ =>
    (hlast d₁ d₂).transparent
  obtain rfl : last = [] := (hlast d₁ d₂).eq_nil hquotient
  obtain ⟨t, ht, hexact, rfl⟩ := calls_of_derivative hfirst
  -- both derivatives have read the same number
  obtain ⟨t', ht', -, rfl⟩ := calls_of_derivative hsecond
  obtain rfl : t = t' := Except.ok.inj (ht.symm.trans ht')
  rw [hval, List.append_nil]
  exact ⟨t, ht, hexact, rfl⟩

/-- A point whose value is found has been called once. -/
theorem calls_of_value {t : α} (ht : x.toScalar = .ok t) {samples : List α}
    (hyields : Yields (Sampling.valuesAt Crew.single (.rule value) [x]) (.ok samples) calls) :
    calls = [.number t] := by
  have hpoint : [x].mapM Sampling.pointOf = .ok [Point.number t] := by
    rw [List.mapM_cons, List.mapM_nil, Sampling.pointOf_of_toScalar ht]
    rfl
  obtain ⟨hout, rfl⟩ := hyields.unique (Sampling.yields_valuesAt_rule (n := 1) rfl [x])
  obtain ⟨points, hplaces, hok⟩ := Sampling.outcomeOf_eq_ok hout.symm
  rw [hplaces, Sampling.callsOf_of_forall_ok 1 hok]
  exact Except.ok.inj (hplaces.symm.trans hpoint)

/-! ## Parts of the strategy -/

variable (epsilon : Positive α) (trial : Option (Positive α)) (config : AdaptiveConfig α)

/-- **Balancing.** The last part of the strategy: the bandwidth for a coefficient and the samples at the point
itself. -/
def balance (s : Stencil) (x : Argument α) (h₂ coefficient : α) (samples : List α) : Action α α := do
  let magnitude := Scalar.abs (samples.headD Scalar.missing)
  if Scalar.isZero magnitude then
    Action.note (.vanishing x h₂)
    return h₂
  let norm ← Cache.norm (.descriptor (.axis s))
  let h ← Action.ofExcept
    (Optimal.ofStencil s (Scalar.one / coefficient) epsilon.val norm magnitude)
  return (← Action.ofExcept (Validation.positive h "adaptive bandwidth")).val

/-- **Selecting.** What follows the estimate of the truncation coefficient. -/
def select (f : SampledFunction α) (s : Stencil) (x : Argument α) (h₂ c : α) : Action α α := do
  if Scalar.lt (Scalar.abs c) Scalar.epsilon then
    Action.note (.negligible (Scalar.abs c) x h₂)
    return h₂
  let samples ← Sampling.valuesAt Crew.single f [x]
  balance epsilon s x h₂ (Scalar.abs c) samples

/-- The parts of the strategy for a stencil that takes a derivative. -/
theorem choose_eq (f : SampledFunction α) (horder : 0 < s.order) :
    choose epsilon trial config f (.descriptor (.axis s)) x
      = trialBandwidth epsilon trial config (.descriptor (.axis s)) x >>= fun h₂ =>
        truncationCoefficient config f (.descriptor (.axis s)) x (.real h₂) >>= fun c =>
        select epsilon f s x h₂ c := by
  show (if s.order = 0 then _ else _) = _
  rw [if_neg horder.ne']
  rfl

theorem confined_balance {P : Point α → Prop} (s : Stencil) (x : Argument α) (h₂ coefficient : α)
    (samples : List α) : Confined P (balance epsilon s x h₂ coefficient samples) :=
  .ite (.bind (.note _) fun _ => .pure _) <| .bind (Cache.confined_norm _) fun _ =>
    .bind (.ofExcept _) fun _ => .bind (.ofExcept _) fun _ => .pure _

/-- Selecting is transparent. -/
theorem transparent_select (f : SampledFunction α) (s : Stencil) (x : Argument α) (h₂ c : α) :
    Transparent (select epsilon f s x h₂ c) := by
  rw [select]
  split
  · exact (Yields.note _).transparent.bind fun _ => (Yields.pure h₂).transparent
  · exact (Sampling.composed_valuesAt Crew.single f [x]).transparent.bind fun samples =>
      (confined_balance (P := fun _ => False) epsilon s x h₂ _ samples).transparent

/-- If the coefficient is below the machine epsilon, the trial bandwidth stays, without a call; otherwise the
rule is called at the point. -/
theorem calls_of_select {t h₂ c h : α} (ht : x.toScalar = .ok t)
    (hyields : Yields (select epsilon (.rule value) s x h₂ c) (.ok h) calls) :
    calls = (if Scalar.lt (Scalar.abs c) Scalar.epsilon then [] else [.number t]) ∧
      (Scalar.lt (Scalar.abs c) Scalar.epsilon → h = h₂) := by
  rw [select] at hyields
  split at hyields
  · next hlt =>
    obtain ⟨hout, rfl⟩ := hyields.unique
      (Yields.silent_bind (Yields.note (.negligible (Scalar.abs c) x h₂)) (Yields.pure h₂))
    exact ⟨(if_pos hlt).symm, fun _ => Except.ok.inj hout⟩
  · next hlt =>
    have hbalance : ∀ samples, Confined (fun _ => False)
        (balance epsilon s x h₂ (Scalar.abs c) samples) := fun samples =>
      confined_balance epsilon s x h₂ _ samples
    obtain ⟨samples, called, rest, hsamples, hrest, rfl⟩ := hyields.of_bind
      (Sampling.composed_valuesAt _ _ _).transparent fun samples => (hbalance samples).transparent
    obtain rfl : rest = [] := (hbalance samples).eq_nil hrest
    rw [calls_of_value ht hsamples, if_neg hlt]
    exact ⟨List.append_nil _, fun h => absurd h hlt⟩

/-! ## Calls of the strategy -/

/-- A stencil that takes no derivative has the bandwidth one, without a call. -/
theorem yields_choose_of_order_eq_zero (f : SampledFunction α) (horder : s.order = 0) :
    Yields (choose epsilon trial config f (.descriptor (.axis s)) x) (.ok Scalar.one) [] := by
  refine Yields.silent_bind (b := s) (Yields.ofExcept _) ?_
  rw [if_pos horder]
  exact Yields.pure _

/-- A choice that succeeds has called the rule with the larger bandwidth and then with the smaller one, and
then at the point itself, unless the truncation coefficient is below the machine epsilon. -/
theorem calls_of_choose (horder : 0 < s.order) {h : α}
    (hyields : Yields (choose epsilon trial config (.rule value) (.descriptor (.axis s)) x) (.ok h)
      calls) :
    ∃ t h₂ c estimated,
      x.toScalar = .ok t ∧ Coefficients.ofStencil (α := α) s = .ok s.coefficients ∧
      Yields (trialBandwidth epsilon trial config (.descriptor (.axis s)) x) (.ok h₂) [] ∧
      Yields (truncationCoefficient config (.rule value) (.descriptor (.axis s)) x (.real h₂)) (.ok c)
        estimated ∧
      calls = gridCalls s s.coefficients t (h₂ * config.stepRatio.val) ++
        gridCalls s s.coefficients t h₂ ++
        (if Scalar.lt (Scalar.abs c) Scalar.epsilon then [] else [.number t]) ∧
      (Scalar.lt (Scalar.abs c) Scalar.epsilon → h = h₂) := by
  rw [choose_eq epsilon trial config (.rule value) horder] at hyields
  have hestimate : ∀ h₂, Transparent
      (truncationCoefficient config (.rule value) (.descriptor (.axis s)) x (.real h₂)) := fun h₂ =>
    (composed_truncationCoefficient config _ _ x _).transparent
  obtain ⟨h₂, first, rest, htrial, hrest, rfl⟩ := hyields.of_bind
    (composed_trialBandwidth epsilon trial config _ x).transparent fun h₂ =>
      (hestimate h₂).bind fun c => transparent_select epsilon _ s x h₂ c
  obtain ⟨c, estimated, last, hc, hlast, rfl⟩ := hrest.of_bind (hestimate h₂) fun c =>
    transparent_select epsilon _ s x h₂ c
  obtain rfl : first = [] :=
    (confined_trialBandwidth epsilon trial config (.descriptor (.axis s)) x).eq_nil htrial
  obtain ⟨t, ht, hexact, rfl⟩ := calls_of_truncationCoefficient hc
  obtain ⟨rfl, hkept⟩ := calls_of_select epsilon ht hlast
  exact ⟨t, h₂, c, _, ht, hexact, htrial, hc, rfl, hkept⟩

/-- **Calls of an adaptive request.** After every history, for every adaptive strategy, every stencil and every
argument: if the stencil takes no derivative, the bandwidth is one and no function is called.  Otherwise, if a
bandwidth is chosen for a rule, then a trial bandwidth and a truncation coefficient have been found, and the
rule has been called at the offsets with a nonzero coefficient, first with the larger and then with the trial
bandwidth, and once more at the point itself, unless the coefficient is below the machine epsilon and the
trial bandwidth is the answer.  So the calls are twice the offsets without the vanishing ones, or one more. -/
theorem calls_in_order (history : List (Operation α)) (s : Stencil) (x : Argument α) :
    let start := Session.after history
    let strategy := GivenStrategy.axis (.adaptive epsilon trial config)
    let descriptor : Argument α := .descriptor (.axis s)
    (∀ f, s.order = 0 →
      ((strategy.chooseNumber f descriptor x).perform start).1 = .ok (.real Scalar.one) ∧
        ((strategy.chooseNumber f descriptor x).perform start).2.calls = start.calls) ∧
    ∀ value answer, 0 < s.order →
      ((strategy.chooseNumber (.rule value) descriptor x).perform start).1 = .ok answer →
      ∃ t h₂ c exact calls last, x.toScalar = .ok t ∧
        Coefficients.ofStencil (α := α) s = .ok exact ∧
        ((strategy.trialBandwidth descriptor x).perform start).1 = .ok h₂ ∧
        ((strategy.truncationCoefficient (.rule value) descriptor x (.real h₂)).perform start).1
          = .ok c ∧
        ((strategy.chooseNumber (.rule value) descriptor x).perform start).2.calls
          = start.calls ++ calls ∧
        calls = gridCalls s exact t (h₂ * config.stepRatio.val) ++ gridCalls s exact t h₂ ++ last ∧
        last = (if Scalar.lt (Scalar.abs c) Scalar.epsilon then [] else [.number t]) ∧
        (Scalar.lt (Scalar.abs c) Scalar.epsilon → answer = .real h₂) ∧
        calls.length = 2 * (s.length - s.vanishing) + last.length := by
  intro start strategy descriptor
  have hsound : start.cache.Sound := Session.sound_after history
  refine ⟨fun f horder => ?_, fun value answer horder hanswer => ?_⟩
  · have hone : Yields (strategy.chooseNumber f descriptor x) (.ok (.real Scalar.one)) [] :=
      Yields.bind_silent (yields_choose_of_order_eq_zero epsilon trial config f horder) (Yields.pure _)
    obtain ⟨hout, hcalls, -⟩ := hone start hsound
    exact ⟨hout, hcalls.trans (List.append_nil _)⟩
  · have hchosen := (strategy.composed_chooseNumber (.rule value) descriptor x).transparent.yields
    obtain ⟨hout, hcalls, -⟩ := hchosen start hsound
    rw [← hout, hanswer] at hchosen
    obtain ⟨h, called, rest, hh, hrest, hsplit⟩ := Yields.of_bind hchosen
      (composed_choose epsilon trial config (.rule value) descriptor x).transparent
      fun h => (Yields.pure (Argument.real h)).transparent
    obtain ⟨hreal, rfl⟩ := hrest.unique (Yields.pure (Argument.real h))
    rw [hsplit, List.append_nil] at hcalls
    obtain ⟨t, h₂, c, estimated, ht, hexact, htrial, hc, hcalled, hkept⟩ :=
      calls_of_choose epsilon trial config horder hh
    refine ⟨t, h₂, c, s.coefficients, called, _, ht, hexact, htrial.outcome_after history,
      hc.outcome_after history, hcalls, hcalled, rfl, fun hlt => ?_, ?_⟩
    · rw [Except.ok.inj hreal, hkept hlt]
    · rw [hcalled, List.length_append, List.length_append, length_gridCalls, length_gridCalls, two_mul]

omit [Memory] in
/-- The request for the cube at one calls it at the outer points of the central first derivative with the
bandwidths one half and one fourth, and then at one. -/
theorem calls_in_order_cube :
    letI : Memory := .ample
    letI : FractionalPower := thirdRoot
    ((quarter.chooseNumber (.ofPartial cube) (.descriptor (.axis .threePointCentral))
        (.real 1)).perform (Session.after [])).2.calls
      = [.number (1 / 2), .number (3 / 2), .number (3 / 4), .number (5 / 4), .number 1] := by
  let : Memory := .ample
  let : FractionalPower := thirdRoot
  have hanswer := bandwidthAfter_cube
  have hcoefficient := coefficientAfter_cube
  rw [GivenStrategy.bandwidthAfter, SampledFunction.ofPartial, quarter, given] at hanswer
  rw [GivenStrategy.coefficientAfter, SampledFunction.ofPartial, quarter, given] at hcoefficient
  rw [SampledFunction.ofPartial, quarter, given]
  obtain ⟨t, h₂, c, exact, calls, last, ht, hexact, htrial, hc, hcalls, hordered, hlast, -⟩ :=
    (calls_in_order (Exact.positive (1 / 256 - 1 / 2 ^ 53) (by norm_num))
      (some (Exact.positive (1 / 4) (by norm_num))) doubling [] .threePointCentral (.real 1)).2 _ _
      (by decide) hanswer
  obtain rfl : 1 = t := Except.ok.inj ht
  obtain rfl : 1 / 4 = h₂ := Except.ok.inj htrial
  obtain rfl : -1 = c := Except.ok.inj (hcoefficient.symm.trans hc)
  have hlarge : ¬(Scalar.lt (Scalar.abs (-1 : ℚ)) Scalar.epsilon = true) := by
    with_unfolding_all decide
  obtain rfl : [-1 / 2, 0, 1 / 2] = exact := by
    refine Except.ok.inj (Eq.trans ?_ hexact)
    with_unfolding_all rfl
  have hoffsets : Univariate.sampledOffsets .threePointCentral [-1 / 2, 0, 1 / 2] = [-1, 1] := by
    decide +kernel
  rw [hcalls, hordered, hlast, if_neg hlarge, gridCalls, gridCalls, hoffsets]
  show [Point.number (1 + -1 * (1 / 4 * 2)), .number (1 + 1 * (1 / 4 * 2)),
    .number (1 + -1 * (1 / 4)), .number (1 + 1 * (1 / 4)), .number 1] = _
  norm_num

end Adaptive

end FiniteDifference
