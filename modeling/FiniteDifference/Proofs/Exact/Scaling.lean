import FiniteDifference.Proofs.Exact.LeadingError
import FiniteDifference.Proofs.Exact.Nested

/-!
# Scaling a function

In exact arithmetic the estimates of a multiple of a function are the multiples of its estimates, also
where the function fails.  The closed form of the adaptive strategy balances quantities that both scale,
so its bandwidth is the one of the function itself, as long as the truncation coefficients of both are on
the same side of the machine epsilon: this bound does not scale, and below it the trial bandwidth stays.
-/

open FiniteDifference.Action

namespace FiniteDifference

/-! ## Multiples -/

/-- **Multiples.** A function that may fail, times a number. -/
def multiple (K : ℚ) (g : ℚ → Except (Fault ℚ) ℚ) (y : ℚ) : Except (Fault ℚ) ℚ :=
  (g y).map (K * ·)

/-- A sum of products with multiples is the multiple of the sum. -/
theorem sum_zipWith_map_mul_left (K : ℚ) (cs ys : List ℚ) :
    (List.zipWith (· * ·) cs (ys.map (K * ·))).sum = K * (List.zipWith (· * ·) cs ys).sum := by
  induction cs generalizing ys with
  | nil => simp
  | cons c cs ih =>
    cases ys with
    | nil => simp
    | cons y ys =>
      rw [List.map_cons, List.zipWith_cons_cons, List.zipWith_cons_cons, List.sum_cons, List.sum_cons,
        ih]
      ring

variable [FractionalPower]

/-- A quotient of a multiple is the multiple of the quotient. -/
theorem Exact.quotient_mul_left (K x y : ℚ) :
    Evaluation.quotient (K * x) y = (Evaluation.quotient x y).map (K * ·) := by
  rw [Evaluation.quotient, Evaluation.quotient]
  split
  · rfl
  · exact congrArg Except.ok (mul_div_assoc K x y)

/-- Magnitudes are those of the rational numbers. -/
theorem Exact.abs_eq (x : ℚ) : Scalar.abs x = |x| := by
  rcases le_total 0 x with hx | hx
  · rw [abs_of_nonneg hx]
    exact Rat.abs_of_nonneg hx
  · rw [abs_of_nonpos hx]
    exact Rat.abs_of_nonpos hx

/-- The balance of two errors stays if the samples grow as the truncation error does. -/
theorem Optimal.ofStencil_scaled (s : Stencil) (scale epsilon norm magnitude : ℚ) {k : ℚ} (hk : k ≠ 0) :
    ofStencil s (scale / k) epsilon norm (k * magnitude) = ofStencil s scale epsilon norm magnitude := by
  have hbase : ∀ ratio : ℚ, ratio * (scale / k)
        * (epsilon * (k * magnitude * norm) + Scalar.epsilon * (k * magnitude * norm) / Scalar.nearest 2)
      = ratio * scale
        * (epsilon * (magnitude * norm) + Scalar.epsilon * (magnitude * norm) / Scalar.nearest 2) := by
    intro ratio
    field_simp
  simp only [ofStencil, bandwidth, balance, roundOff, hbase]

namespace Univariate

/-- The multiples of samples are spread to the multiples of the entries. -/
theorem spread_map_mul (K : ℚ) (exact samples : List ℚ) :
    spread exact (samples.map (K * ·)) = (spread exact samples).map (K * ·) := by
  have hzero : K * (Scalar.zero : ℚ) = Scalar.zero := mul_zero K
  induction exact generalizing samples with
  | nil => rfl
  | cons c exact ih =>
    by_cases hc : c = 0
    · rw [hc, spread_zero_cons, spread_zero_cons, ih, List.map_cons, hzero]
    · cases samples with
      | nil =>
        have hrest := ih []
        rw [List.map_nil] at hrest
        rw [List.map_nil, spread_cons_nil hc, List.map_cons, hzero, ← hrest]
      | cons y samples =>
        rw [List.map_cons, spread_cons_cons hc, spread_cons_cons hc, ih, List.map_cons]

variable [Memory]

/-- **Estimates from samples.** The derivative of a function that may fail, from its outcomes at the sampled
offsets. -/
def outcomeAt (s : Stencil) (g : ℚ → Except (Fault ℚ) ℚ) (x h : ℚ) : Except (Fault ℚ) ℚ := do
  let _ ← s.listedOffsets
  let samples ← (sampledOffsets s s.coefficients).mapM fun o : ℤ => g (x + o * h)
  return (List.zipWith (· * ·) s.coefficients (spread s.coefficients samples)).sum / h ^ s.order

/-- The derivative of a function that may fail. -/
theorem outcome_valueWith_ofPartial (g : ℚ → Except (Fault ℚ) ℚ) (s : Stencil) (x : ℚ) {h : ℚ}
    (hh : 0 < h) :
    ∃ calls, Yields (valueWith (.ofPartial g) s Crew.single (.real x) (.real h))
      (outcomeAt s g x h) calls := by
  cases hlisted : (s.listedOffsets : Except (Fault ℚ) (List ℤ)) with
  | error fault =>
    rw [outcomeAt, hlisted]
    exact ⟨[], yields_valueWith_of_error _ hlisted Crew.single x hh⟩
  | ok offsets =>
    have hroom := ((s.listedOffsets_eq_ok_iff offsets).mp hlisted).1
    have hvalues := Sampling.yields_values_single (f := .ofPartial g) (pointAt x h)
      (fun o : ℤ => g (x + o * h)) (fun o => SampledFunction.yields_call_ofPartial g _) default
      (sampledOffsets s s.coefficients)
    have hvalue := yields_valueWith_of_samples (x := .real x) (b := Exact.positive h hh) rfl
      (Exact.requirePositive_real hh "bandwidth") hroom hvalues
    -- the samples are as many as the coefficients once they are in their places
    have hgrid : ∀ samples, Evaluation.outcome (.axis s) (spread s.coefficients samples) (.real h)
        = .ok ((List.zipWith (· * ·) s.coefficients (spread s.coefficients samples)).sum
          / h ^ s.order) :=
      fun samples => outcome_axis hroom (by rw [length_spread, s.length_coefficients]) hh
    simp only [show (Exact.positive h hh).val = h from rfl, hgrid] at hvalue
    rw [outcomeAt, hlisted]
    exact ⟨_, hvalue⟩

/-- The derivative of a multiple is the multiple of the derivative. -/
theorem outcomeAt_multiple (K : ℚ) (s : Stencil) (g : ℚ → Except (Fault ℚ) ℚ) (x h : ℚ) :
    outcomeAt s (multiple K g) x h = (outcomeAt s g x h).map (K * ·) := by
  rw [outcomeAt, outcomeAt]
  cases (s.listedOffsets : Except (Fault ℚ) (List ℤ)) with
  | error fault => rfl
  | ok offsets =>
    have hsamples := mapM_map_outcome (fun o : ℤ => g (x + o * h)) (K * ·)
      (sampledOffsets s s.coefficients)
    show (do
      let samples ← (sampledOffsets s s.coefficients).mapM fun o : ℤ => (g (x + o * h)).map (K * ·)
      pure _) = _
    rw [hsamples]
    cases (sampledOffsets s s.coefficients).mapM fun o : ℤ => g (x + o * h) with
    | error fault => rfl
    | ok samples =>
      refine congrArg Except.ok ?_
      rw [spread_map_mul, sum_zipWith_map_mul_left, mul_div_assoc]

end Univariate

variable [Memory]

namespace Adaptive

/-! ## Truncation coefficients -/

/-- The derivative with a fixed bandwidth of a function that may fail. -/
theorem outcome_derivative_ofPartial (g : ℚ → Except (Fault ℚ) ℚ) (s : Stencil) (x : ℚ) {h : ℚ}
    (hh : 0 < h) :
    ∃ calls, Yields (derivative (.ofPartial g) (.descriptor (.axis s)) (.real x) h)
      (Univariate.outcomeAt s g x h) calls := by
  obtain ⟨calls, hvalue⟩ := Univariate.outcome_valueWith_ofPartial g s x hh
  exact ⟨calls, yields_derivative rfl s x hh hvalue⟩

/-- **Estimated coefficients.** The truncation coefficient of a function that may fail, from its
derivatives with two bandwidths. -/
def coefficientAt (config : AdaptiveConfig ℚ) (s : Stencil) (g : ℚ → Except (Fault ℚ) ℚ) (x h : ℚ) :
    Except (Fault ℚ) ℚ := do
  let h₂ ← Validation.positive h "trial_bandwidth"
  let d₁ ← Univariate.outcomeAt s g x (h₂.val * config.stepRatio.val)
  let d₂ ← Univariate.outcomeAt s g x h₂.val
  Evaluation.quotient (d₂ - d₁) ((h₂.val * config.stepRatio.val) ^ s.accuracy - h₂.val ^ s.accuracy)

/-- The truncation coefficient of a function that may fail. -/
theorem outcome_truncationCoefficient_ofPartial (config : AdaptiveConfig ℚ) (s : Stencil)
    (g : ℚ → Except (Fault ℚ) ℚ) (x h : ℚ) :
    ∃ calls, Yields (truncationCoefficient config (.ofPartial g) (.descriptor (.axis s)) (.real x)
      (.real h)) (coefficientAt config s g x h) calls := by
  have hratio : 0 < config.stepRatio.val := of_decide_eq_true config.stepRatio.isPositive
  rw [truncationCoefficient, coefficientAt]
  refine Yields.exists_bind ⟨[], Yields.ofExcept _⟩ fun h₂ => ?_
  have hpos : 0 < h₂.val := of_decide_eq_true h₂.isPositive
  refine Yields.exists_bind (outcome_derivative_ofPartial g s x (mul_pos hpos hratio)) fun d₁ => ?_
  refine Yields.exists_bind (outcome_derivative_ofPartial g s x hpos) fun d₂ => ?_
  refine ⟨[], Yields.silent_bind (b := s) (Yields.ofExcept _) ?_⟩
  rw [Exact.power_eq, Exact.power_eq]
  refine Yields.silent_bind (b := (h₂.val * config.stepRatio.val) ^ s.accuracy) (Yields.ofExcept _) ?_
  exact Yields.silent_bind (b := h₂.val ^ s.accuracy) (Yields.ofExcept _) (Yields.ofExcept _)

/-- The truncation coefficient of a multiple is the multiple of the truncation coefficient. -/
theorem coefficientAt_multiple (config : AdaptiveConfig ℚ) (K : ℚ) (s : Stencil)
    (g : ℚ → Except (Fault ℚ) ℚ) (x h : ℚ) :
    coefficientAt config s (multiple K g) x h = (coefficientAt config s g x h).map (K * ·) := by
  rw [coefficientAt, coefficientAt]
  cases Validation.positive h "trial_bandwidth" with
  | error fault => rfl
  | ok h₂ =>
    show (do
      let d₁ ← Univariate.outcomeAt s (multiple K g) x (h₂.val * config.stepRatio.val)
      let d₂ ← Univariate.outcomeAt s (multiple K g) x h₂.val
      Evaluation.quotient (d₂ - d₁) _) = (do
        let d₁ ← Univariate.outcomeAt s g x (h₂.val * config.stepRatio.val)
        let d₂ ← Univariate.outcomeAt s g x h₂.val
        Evaluation.quotient (d₂ - d₁) _ : Except (Fault ℚ) ℚ).map _
    rw [Univariate.outcomeAt_multiple, Univariate.outcomeAt_multiple]
    cases Univariate.outcomeAt s g x (h₂.val * config.stepRatio.val) with
    | error fault => rfl
    | ok d₁ =>
      cases Univariate.outcomeAt s g x h₂.val with
      | error fault => rfl
      | ok d₂ =>
        show Evaluation.quotient (K * d₂ - K * d₁) _ = (Evaluation.quotient (d₂ - d₁) _).map _
        rw [← mul_sub, Exact.quotient_mul_left]

/-! ## Bandwidths -/

/-- **Balanced bandwidths.** The bandwidth for a truncation coefficient and a value of the function, of
which the value zero leaves nothing to balance. -/
def balancedAt (epsilon : Positive ℚ) (s : Stencil) (norm : Except (Fault ℚ) ℚ) (h₂ c y : ℚ) :
    Except (Fault ℚ) ℚ := do
  if y = 0 then return h₂
  let norm ← norm
  let h ← Optimal.ofStencil s (1 / |c|) epsilon.val norm |y|
  return (← Validation.positive h "adaptive bandwidth").val

/-- **Selected bandwidths.** The bandwidth for a function that may fail, from a trial bandwidth and the
norm of the stencil. -/
def selectedAt (epsilon : Positive ℚ) (config : AdaptiveConfig ℚ) (s : Stencil)
    (g : ℚ → Except (Fault ℚ) ℚ) (x : ℚ) (norm : Except (Fault ℚ) ℚ) (h₂ : ℚ) :
    Except (Fault ℚ) ℚ := do
  let c ← coefficientAt config s g x h₂
  if |c| < Scalar.epsilon then return h₂
  balancedAt epsilon s norm h₂ c (← g x)

/-- The sample of a function that may fail at a single point. -/
theorem outcome_valuesAt_ofPartial (g : ℚ → Except (Fault ℚ) ℚ) (x : ℚ) :
    ∃ calls, Yields (Sampling.valuesAt Crew.single (.ofPartial g) [.real x])
      ((g x).map ([·])) calls := by
  have hvalues := Sampling.yields_values_single (f := .ofPartial g) (fun y : ℚ => .number y) g
    (SampledFunction.yields_call_ofPartial g) default [x]
  have hsingle : [x].mapM g = (g x).map ([·]) := by
    rw [List.mapM_cons, List.mapM_nil]
    cases g x with
    | error fault => rfl
    | ok y => rfl
  rw [hsingle] at hvalues
  exact ⟨_, Yields.silent_bind (b := [.number x]) (Yields.ofExcept _) hvalues⟩

/-- The adaptive bandwidth of a function that may fail. -/
theorem outcome_choose_ofPartial (epsilon : Positive ℚ) (trial : Option (Positive ℚ))
    (config : AdaptiveConfig ℚ) {s : Stencil} (horder : s.order ≠ 0) (g : ℚ → Except (Fault ℚ) ℚ)
    (x : ℚ) {first norm : Except (Fault ℚ) ℚ} (hfirst : ∃ calls, Yields
      (trialBandwidth epsilon trial config (.descriptor (.axis s)) (.real x)) first calls)
    (hnorm : ∃ calls, Yields (Cache.norm (.descriptor (.axis s))) norm calls) :
    ∃ calls, Yields (choose epsilon trial config (.ofPartial g) (.descriptor (.axis s)) (.real x))
      (first >>= selectedAt epsilon config s g x norm) calls := by
  refine Yields.exists_ok_bind (b := s) ⟨[], Yields.ofExcept _⟩ ?_
  rw [if_neg horder]
  refine Yields.exists_bind hfirst fun h₂ => ?_
  refine Yields.exists_bind (outcome_truncationCoefficient_ofPartial config s g x h₂) fun c => ?_
  rw [Exact.abs_eq]
  refine Yields.exists_ite decide_eq_true_iff
    (fun _ => Yields.exists_ok_bind ⟨[], Yields.note _⟩ ⟨[], Yields.pure h₂⟩) fun _ => ?_
  -- the sample at the point is the head of a list of one
  have hvalues := outcome_valuesAt_ofPartial g x
  cases hg : g x with
  | error fault =>
    rw [hg] at hvalues
    obtain ⟨calls, hvalues⟩ := hvalues
    exact ⟨calls, Yields.bind_error hvalues⟩
  | ok y =>
    rw [hg] at hvalues
    refine Yields.exists_ok_bind hvalues ?_
    rw [List.headD_cons, Exact.abs_eq]
    refine Yields.exists_ite (decide_eq_true_iff.trans abs_eq_zero)
      (fun _ => Yields.exists_ok_bind ⟨[], Yields.note _⟩ ⟨[], Yields.pure h₂⟩) fun _ => ?_
    refine Yields.exists_bind hnorm fun norm => ?_
    exact Yields.exists_bind ⟨[], Yields.ofExcept _⟩ fun h =>
      Yields.exists_bind ⟨[], Yields.ofExcept _⟩ fun b => ⟨[], Yields.pure b.val⟩

omit [Memory] in
/-- The trial bandwidth stays where the function vanishes. -/
theorem balancedAt_zero (epsilon : Positive ℚ) (s : Stencil) (norm : Except (Fault ℚ) ℚ) (h₂ c : ℚ) :
    balancedAt epsilon s norm h₂ c 0 = .ok h₂ :=
  if_pos rfl

omit [Memory] in
/-- The balance is the same for the multiples of the coefficient and of the value. -/
theorem balancedAt_mul (epsilon : Positive ℚ) (s : Stencil) (norm : Except (Fault ℚ) ℚ) (h₂ c y : ℚ)
    {K : ℚ} (hK : K ≠ 0) :
    balancedAt epsilon s norm h₂ (K * c) (K * y) = balancedAt epsilon s norm h₂ c y := by
  have hzero : K * y = 0 ↔ y = 0 := by rw [mul_eq_zero, or_iff_right hK]
  have hscale : 1 / |K * c| = 1 / |c| / |K| := by rw [abs_mul, div_div, mul_comm |K|]
  rw [balancedAt, balancedAt, if_congr hzero rfl rfl, hscale, abs_mul]
  simp only [Optimal.ofStencil_scaled s _ _ _ _ (abs_ne_zero.mpr hK)]

/-- The bandwidth selected for a multiple is the one selected for the function, if the machine epsilon
does not separate their truncation coefficients. -/
theorem selectedAt_multiple (epsilon : Positive ℚ) (config : AdaptiveConfig ℚ) (s : Stencil)
    (g : ℚ → Except (Fault ℚ) ℚ) (x : ℚ) (norm : Except (Fault ℚ) ℚ) {h₂ K : ℚ} (hK : K ≠ 0)
    (hside : g x = .ok 0 ∨ ∀ c, coefficientAt config s g x h₂ = .ok c →
      (|c| < Scalar.epsilon ↔ |K * c| < Scalar.epsilon)) :
    selectedAt epsilon config s (multiple K g) x norm h₂ = selectedAt epsilon config s g x norm h₂ := by
  rw [selectedAt, selectedAt, coefficientAt_multiple]
  cases hc : coefficientAt config s g x h₂ with
  | error fault => rfl
  | ok c =>
    have hbalanced : (multiple K g x >>= balancedAt epsilon s norm h₂ (K * c))
        = g x >>= balancedAt epsilon s norm h₂ c := by
      rw [multiple]
      cases g x with
      | error fault =>
        -- reduced first, or the two balances after the fault are compared
        show (.error fault : Except (Fault ℚ) ℚ) = .error fault
        rfl
      | ok y => exact balancedAt_mul epsilon s norm h₂ c y hK
    show (if |K * c| < Scalar.epsilon then .ok h₂
        else multiple K g x >>= balancedAt epsilon s norm h₂ (K * c) : Except (Fault ℚ) ℚ)
      = if |c| < Scalar.epsilon then .ok h₂ else g x >>= balancedAt epsilon s norm h₂ c
    rw [hbalanced]
    rcases hside with hzero | hside
    · -- whatever the coefficient is, the trial bandwidth stays
      have hstays : (g x >>= balancedAt epsilon s norm h₂ c) = .ok h₂ := by
        rw [hzero]
        exact balancedAt_zero epsilon s norm h₂ c
      rw [hstays, ite_self, ite_self]
    · exact if_congr (hside c hc).symm rfl rfl

/-- The trial bandwidth stays if the truncation coefficient is below the machine epsilon. -/
theorem selectedAt_of_lt (epsilon : Positive ℚ) {config : AdaptiveConfig ℚ} {s : Stencil}
    {g : ℚ → Except (Fault ℚ) ℚ} {x h₂ c : ℚ} (norm : Except (Fault ℚ) ℚ)
    (hc : coefficientAt config s g x h₂ = .ok c) (hlt : |c| < Scalar.epsilon) :
    selectedAt epsilon config s g x norm h₂ = .ok h₂ := by
  rw [selectedAt, hc]
  exact if_pos hlt

end Adaptive

/-! ## After a history -/

namespace GivenStrategy

/-- The trial bandwidth of a strategy after a history. -/
def trialAfter (strategy : GivenStrategy ℚ) (history : List (Operation ℚ)) (s : Stencil) (x : ℚ) :
    Except (Fault ℚ) ℚ :=
  ((strategy.trialBandwidth (.descriptor (.axis s)) (.real x)).perform (Session.after history)).1

/-- The truncation coefficient that a strategy estimates after a history, with a given trial bandwidth. -/
def coefficientAfter (strategy : GivenStrategy ℚ) (history : List (Operation ℚ))
    (f : SampledFunction ℚ) (s : Stencil) (x h : ℚ) : Except (Fault ℚ) ℚ :=
  ((strategy.truncationCoefficient f (.descriptor (.axis s)) (.real x) (.real h)).perform
    (Session.after history)).1

/-- The bandwidth of a strategy after a history. -/
def bandwidthAfter (strategy : GivenStrategy ℚ) (history : List (Operation ℚ))
    (f : SampledFunction ℚ) (s : Stencil) (x : ℚ) : Except (Fault ℚ) (Argument ℚ) :=
  ((strategy.chooseNumber f (.descriptor (.axis s)) (.real x)).perform (Session.after history)).1

end GivenStrategy

namespace Adaptive

/-- The adaptive strategy as it is given. -/
def given (epsilon : Positive ℚ) (trial : Option (Positive ℚ)) (config : AdaptiveConfig ℚ) :
    GivenStrategy ℚ :=
  .axis (.adaptive epsilon trial config)

/-- The truncation coefficient of a function that may fail, after every history. -/
theorem coefficientAfter_ofPartial (epsilon : Positive ℚ) (trial : Option (Positive ℚ))
    (config : AdaptiveConfig ℚ) (history : List (Operation ℚ)) (g : ℚ → Except (Fault ℚ) ℚ)
    (s : Stencil) (x h : ℚ) :
    (given epsilon trial config).coefficientAfter history (.ofPartial g) s x h
      = coefficientAt config s g x h := by
  obtain ⟨calls, hyields⟩ := outcome_truncationCoefficient_ofPartial config s g x h
  exact hyields.outcome_after history

/-- The adaptive bandwidth of a function that may fail is the one selected from the trial bandwidth and the
norm, which are the same for every function and after every history. -/
theorem exists_bandwidthAfter_ofPartial (epsilon : Positive ℚ) (trial : Option (Positive ℚ))
    (config : AdaptiveConfig ℚ) {s : Stencil} (horder : s.order ≠ 0) (x : ℚ) :
    ∃ first norm, (∀ history, (given epsilon trial config).trialAfter history s x = first) ∧
      ∀ history g, (given epsilon trial config).bandwidthAfter history (.ofPartial g) s x
        = (first >>= selectedAt epsilon config s g x norm) >>= fun h => .ok (.real h) := by
  obtain ⟨first, calls₁, htrial⟩ := (composed_trialBandwidth epsilon trial config
    (.descriptor (.axis s)) (.real x)).transparent
  obtain ⟨norm, calls₂, hnorm⟩ := (Cache.composed_norm (α := ℚ) (.descriptor (.axis s))).transparent
  refine ⟨first, norm, htrial.outcome_after, fun history g => ?_⟩
  obtain ⟨calls, hchosen⟩ := Yields.exists_bind
    (outcome_choose_ofPartial epsilon trial config horder g x ⟨calls₁, htrial⟩ ⟨calls₂, hnorm⟩)
    fun h => ⟨[], Yields.pure (Argument.real h)⟩
  exact hchosen.outcome_after history

/-- Stencils that take no derivative have the bandwidth one. -/
theorem bandwidthAfter_of_order_eq_zero (epsilon : Positive ℚ) (trial : Option (Positive ℚ))
    (config : AdaptiveConfig ℚ) (history : List (Operation ℚ)) (f : SampledFunction ℚ) {s : Stencil}
    (horder : s.order = 0) (x : ℚ) :
    (given epsilon trial config).bandwidthAfter history f s x = .ok (.real 1) := by
  have hchosen : Yields (choose epsilon trial config f (.descriptor (.axis s)) (.real x))
      (.ok Scalar.one) [] := by
    refine Yields.silent_bind (b := s) (Yields.ofExcept _) ?_
    rw [if_pos horder]
    exact Yields.pure _
  exact (Yields.bind_silent hchosen (Yields.pure (Argument.real Scalar.one))).outcome_after history

/-- **Invariance under scaling.** For every adaptive strategy, every stencil, every function that may fail,
every point and every factor other than zero: the truncation coefficient of the multiple is the multiple
of the truncation coefficient.  The bandwidth for the multiple is the one for the function if the stencil
takes no derivative, if the function vanishes at the point, or if both coefficients are on the same side
of the machine epsilon; a coefficient below it leaves the trial bandwidth. -/
theorem bandwidthAfter_multiple (epsilon : Positive ℚ) (trial : Option (Positive ℚ))
    (config : AdaptiveConfig ℚ) (history history' : List (Operation ℚ))
    (g : ℚ → Except (Fault ℚ) ℚ) (s : Stencil) (x K : ℚ) (hK : K ≠ 0) :
    (∀ h, (given epsilon trial config).coefficientAfter history' (.ofPartial (multiple K g)) s x h
      = ((given epsilon trial config).coefficientAfter history (.ofPartial g) s x h).map (K * ·)) ∧
    ((s.order = 0 ∨ g x = .ok 0 ∨ ∀ h c, (given epsilon trial config).trialAfter history s x = .ok h →
        (given epsilon trial config).coefficientAfter history (.ofPartial g) s x h = .ok c →
        (|c| < Scalar.epsilon ↔ |K * c| < Scalar.epsilon)) →
      (given epsilon trial config).bandwidthAfter history' (.ofPartial (multiple K g)) s x
        = (given epsilon trial config).bandwidthAfter history (.ofPartial g) s x) ∧
    ∀ h c, 0 < s.order → (given epsilon trial config).trialAfter history s x = .ok h →
      (given epsilon trial config).coefficientAfter history (.ofPartial g) s x h = .ok c →
      |c| < Scalar.epsilon →
      (given epsilon trial config).bandwidthAfter history (.ofPartial g) s x = .ok (.real h) := by
  simp only [coefficientAfter_ofPartial]
  refine ⟨fun h => coefficientAt_multiple config K s g x h, fun hside => ?_,
    fun h c horder htrial hc hlt => ?_⟩
  · by_cases horder : s.order = 0
    · rw [bandwidthAfter_of_order_eq_zero _ _ _ _ _ horder,
        bandwidthAfter_of_order_eq_zero _ _ _ _ _ horder]
    · obtain ⟨first, norm, htrial, hbandwidth⟩ :=
        exists_bandwidthAfter_ofPartial epsilon trial config horder x
      rw [or_iff_right horder] at hside
      rw [htrial] at hside
      rw [hbandwidth, hbandwidth]
      cases hfirst : first with
      | error fault => rfl
      | ok h =>
        refine congrArg (· >>= fun h => Except.ok (Argument.real h)) ?_
        exact selectedAt_multiple epsilon config s g x norm hK
          (hside.imp_right fun hside c => hside h c hfirst)
  · obtain ⟨first, norm, hfirst, hbandwidth⟩ :=
      exists_bandwidthAfter_ofPartial epsilon trial config horder.ne' x
    rw [hfirst] at htrial
    rw [hbandwidth, htrial]
    show (selectedAt epsilon config s g x norm h >>= fun h => Except.ok (Argument.real h)) = _
    rw [selectedAt_of_lt epsilon norm hc hlt]
    rfl

/-! ## A cube -/

/-- Powers with a fractional exponent, of which only the third root of one over 512 matters. -/
@[reducible] def thirdRoot : FractionalPower :=
  ⟨fun base exponent => if base = 1 / 512 ∧ exponent = 1 / 3 then 1 / 8 else 1⟩

/-- The strategy with the trial bandwidth one fourth, for which the errors of the cube at one add up to one
over 256. -/
def quarter : GivenStrategy ℚ :=
  given (Exact.positive (1 / 256 - 1 / 2 ^ 53) (by norm_num))
    (some (Exact.positive (1 / 4) (by norm_num))) doubling

/-- The cube. -/
def cube (y : ℚ) : Except (Fault ℚ) ℚ := .ok (y ^ 3)

omit [Memory] [FractionalPower] in
theorem coefficientAfter_cube :
    letI : Memory := .ample
    letI : FractionalPower := thirdRoot
    quarter.coefficientAfter [] (.ofPartial cube) .threePointCentral 1 (1 / 4) = .ok (-1) := by
  with_unfolding_all rfl

omit [Memory] [FractionalPower] in
/-- The bandwidth of the cube at one balances its errors. -/
theorem bandwidthAfter_cube :
    letI : Memory := .ample
    letI : FractionalPower := thirdRoot
    quarter.bandwidthAfter [] (.ofPartial cube) .threePointCentral 1 = .ok (.real (1 / 8)) := by
  with_unfolding_all rfl

omit [Memory] [FractionalPower] in
/-- A small multiple of the cube keeps the trial bandwidth. -/
theorem bandwidthAfter_small_cube :
    letI : Memory := .ample
    letI : FractionalPower := thirdRoot
    quarter.bandwidthAfter [] (.ofPartial (multiple (1 / 2 ^ 60) cube)) .threePointCentral 1
      = .ok (.real (1 / 4)) := by
  with_unfolding_all rfl

omit [Memory] [FractionalPower] in
/-- A multiple of the cube whose truncation coefficient is above the machine epsilon as well has the
bandwidth of the cube. -/
theorem bandwidthAfter_neg_two_cube :
    letI : Memory := .ample
    letI : FractionalPower := thirdRoot
    (-2 : ℚ) ≠ 0 ∧ quarter.bandwidthAfter [] (.ofPartial (multiple (-2) cube)) .threePointCentral 1
      = .ok (.real (1 / 8)) := by
  let : Memory := .ample
  let : FractionalPower := thirdRoot
  have hK : (-2 : ℚ) ≠ 0 := by norm_num
  refine ⟨hK, ((bandwidthAfter_multiple _ _ doubling [] [] cube .threePointCentral 1 (-2) hK).2.1
    (.inr (.inr ?_))).trans bandwidthAfter_cube⟩
  intro h c htrial hc
  have hh : (.ok (1 / 4) : Except (Fault ℚ) ℚ) = .ok h := htrial
  cases hh
  have hminusOne := coefficientAfter_cube.symm.trans hc
  cases hminusOne
  have hepsilon : (Scalar.epsilon : ℚ) < 1 := by with_unfolding_all decide
  rw [mul_neg_one, neg_neg, abs_neg, abs_one, abs_two]
  exact iff_of_false hepsilon.not_gt (hepsilon.trans one_lt_two).not_gt

omit [Memory] [FractionalPower] in
/-- Without a bound on the truncation coefficients the bandwidth is not invariant. -/
theorem not_invariant_below_epsilon :
    letI : Memory := .ample
    letI : FractionalPower := thirdRoot
    ¬∀ (epsilon : Positive ℚ) (trial : Option (Positive ℚ)) (config : AdaptiveConfig ℚ)
        (g : ℚ → Except (Fault ℚ) ℚ) (s : Stencil) (x K : ℚ), K ≠ 0 →
      (given epsilon trial config).bandwidthAfter [] (.ofPartial (multiple K g)) s x
        = (given epsilon trial config).bandwidthAfter [] (.ofPartial g) s x := by
  let : Memory := .ample
  let : FractionalPower := thirdRoot
  intro hinvariant
  have hequal := hinvariant (Exact.positive (1 / 256 - 1 / 2 ^ 53) (by norm_num))
    (some (Exact.positive (1 / 4) (by norm_num))) doubling cube .threePointCentral 1 (1 / 2 ^ 60)
    (by norm_num)
  have hquarter := bandwidthAfter_small_cube.symm.trans (hequal.trans bandwidthAfter_cube)
  have hfalse : (1 / 4 : ℚ) = 1 / 8 := by
    injection hquarter with h
    injection h
  norm_num at hfalse

end Adaptive

end FiniteDifference
