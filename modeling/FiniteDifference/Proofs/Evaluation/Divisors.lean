import FiniteDifference.Proofs.Cache.Returns
import FiniteDifference.Proofs.Cache.Transparency
import FiniteDifference.Proofs.Coefficients.Moments
import FiniteDifference.Proofs.Evaluation.Outcome
import FiniteDifference.Proofs.Number.Powers
import FiniteDifference.Proofs.Number.Range

/-!
# Divisors of grids

The checks admit every finite bandwidth above zero, but the divisor of a grid is a power of the bandwidth or
a product of such powers, which need not be a finite number above zero.  So a grid whose arguments pass all
checks can still fail to be evaluated, because a power overflows or because the divisor vanishes, and for no
other reason.
-/

namespace FiniteDifference.Evaluation

/-! ## Accepted arguments -/

section Outcomes

variable {α : Type} [Scalar α]

/-- **Checked bandwidths.** A positive number for a stencil, and as many of them as there are variables for a
tensor stencil. -/
def IsChecked : Descriptor → Argument α → Prop
  | .axis _, bandwidth => ∃ h, Validation.requirePositive bandwidth "bandwidth" = .ok h
  | .tensor t, bandwidth =>
    ∃ hs, Validation.requirePositiveVector bandwidth "bandwidth" = .ok hs ∧ hs.length = t.dimension

/-- **Accepted arguments.** The coefficients are found, there is one sample for each, and the bandwidth passes
its checks. -/
structure IsAccepted [Memory] (d : Descriptor) (samples : List α) (bandwidth : Argument α) : Prop where
  sampled : ∃ coefficients : List α, Cache.generatedScalars d = .ok coefficients ∧
    samples.length = coefficients.length
  checked : IsChecked d bandwidth

/-! ## Faults of divisors -/

/-- A power fails by an overflow only. -/
theorem kind_of_power_eq_error {x : α} {k : ℕ} {why : TooLarge} {fault : Fault α}
    (h : power x k (.tooLarge why) = .error fault) : fault.kind = .overflow := by
  rw [power, Argument.scalarOfInt] at h
  split at h
  · dsimp only [bind, Except.bind] at h
    split at h
    · cases h
      rfl
    · cases h
  · cases h
    rfl

/-- So does a product of powers, by induction on its factors. -/
theorem kind_of_productScale_eq_error {acc : α} {factors : List (Positive α × ℕ)} {fault : Fault α}
    (h : productScale acc factors = .error fault) : fault.kind = .overflow := by
  induction factors generalizing acc with
  | nil => cases h
  | cons factor factors ih =>
    rw [productScale] at h
    cases hpower : power factor.1.val factor.2 (.tooLarge .power) with
    | error other =>
      rw [hpower] at h
      cases h
      exact kind_of_power_eq_error hpower
    | ok y =>
      rw [hpower] at h
      exact ih h

/-- **Divisors** of checked bandwidths fail by an overflow only. -/
theorem kind_of_scale_eq_error {d : Descriptor} {bandwidth : Argument α} (hchecked : IsChecked d bandwidth)
    {fault : Fault α} (h : scale (.descriptor d) bandwidth = .error fault) : fault.kind = .overflow := by
  cases d with
  | axis s =>
    obtain ⟨b, hb⟩ := hchecked
    have hscale : scale (.descriptor (.axis s)) bandwidth = stencilScale s b := by
      rw [scale, hb]
      rfl
    rw [hscale] at h
    exact kind_of_power_eq_error h
  | tensor t =>
    obtain ⟨bs, hbs, hlen⟩ := hchecked
    have hscale : scale (.descriptor (.tensor t)) bandwidth = tensorScale t bs := by
      rw [scale, hbs]
      show (Validation.checkSize bs.length t.dimension "bandwidth dimension" >>= _) = _
      rw [Validation.checkSize, if_pos hlen]
      rfl
    rw [hscale] at h
    exact kind_of_productScale_eq_error h

/-! ## Outcomes of accepted arguments -/

variable [Memory]

/-- The outcome of accepted arguments is the quotient of the contraction by the divisor. -/
theorem IsAccepted.exists_outcome_eq {d : Descriptor} {samples : List α} {bandwidth : Argument α}
    (h : IsAccepted d samples bandwidth) :
    ∃ coefficients, Cache.generatedScalars d = .ok coefficients ∧
      outcome d samples bandwidth
        = scale (.descriptor d) bandwidth >>= quotient (contract coefficients samples) := by
  obtain ⟨coefficients, hgen, hlen⟩ := h.sampled
  refine ⟨coefficients, hgen, ?_⟩
  rw [outcome, hgen]
  show (Validation.checkSize samples.length coefficients.length "grid length" >>= _) = _
  rw [Validation.checkSize, if_pos hlen]
  rfl

/-- **Outcomes.** Accepted arguments give the quotient of the contraction by the divisor if the divisor is
found and is not zero.  Otherwise the divisor is zero and dividing by it is the fault, or finding it is an
overflow. -/
theorem IsAccepted.outcome_cases {d : Descriptor} {samples : List α} {bandwidth : Argument α}
    (h : IsAccepted d samples bandwidth) :
    (∃ coefficients divisor, Cache.generatedScalars d = .ok coefficients ∧
      scale (.descriptor d) bandwidth = .ok divisor ∧ Scalar.isZero divisor = false ∧
      outcome d samples bandwidth = .ok (contract coefficients samples / divisor)) ∨
    (∃ divisor, scale (.descriptor d) bandwidth = .ok divisor ∧ Scalar.isZero divisor = true ∧
      outcome d samples bandwidth = .error (.zeroDivision .real)) ∨
    ∃ fault, scale (.descriptor d) bandwidth = .error fault ∧ fault.kind = .overflow ∧
      outcome d samples bandwidth = .error fault := by
  obtain ⟨coefficients, hgen, houtcome⟩ := h.exists_outcome_eq
  cases hscale : scale (.descriptor d) bandwidth with
  | error fault =>
    rw [hscale] at houtcome
    exact .inr (.inr ⟨fault, rfl, kind_of_scale_eq_error h.checked hscale, houtcome⟩)
  | ok divisor =>
    rw [hscale] at houtcome
    change _ = quotient (contract coefficients samples) divisor at houtcome
    rw [quotient] at houtcome
    cases hzero : Scalar.isZero divisor with
    | false => exact .inl ⟨coefficients, divisor, hgen, rfl, hzero, houtcome.trans (by rw [hzero]; rfl)⟩
    | true => exact .inr (.inl ⟨divisor, rfl, hzero, houtcome.trans (by rw [hzero]; rfl)⟩)

/-- A number is given exactly if the divisor is found and is not zero. -/
theorem IsAccepted.exists_ok_iff {d : Descriptor} {samples : List α} {bandwidth : Argument α}
    (h : IsAccepted d samples bandwidth) :
    (∃ y, outcome d samples bandwidth = .ok y) ↔
      ∃ divisor, scale (.descriptor d) bandwidth = .ok divisor ∧ Scalar.isZero divisor = false := by
  rcases h.outcome_cases with ⟨_, divisor, -, hscale, hzero, hok⟩ | ⟨divisor, hscale, hzero, hfault⟩ |
    ⟨fault, hscale, -, hfault⟩
  · exact iff_of_true ⟨_, hok⟩ ⟨divisor, hscale, hzero⟩
  · refine iff_of_false ?_ ?_
    · rintro ⟨y, hok⟩
      cases hok.symm.trans hfault
    · rintro ⟨other, hother, hne⟩
      cases hother.symm.trans hscale
      rw [hzero] at hne
      cases hne
  · refine iff_of_false ?_ ?_
    · rintro ⟨y, hok⟩
      cases hok.symm.trans hfault
    · rintro ⟨other, hother, -⟩
      cases hother.symm.trans hscale

/-- The number is the quotient of the contraction by the divisor. -/
theorem IsAccepted.eq_of_ok {d : Descriptor} {samples : List α} {bandwidth : Argument α}
    (h : IsAccepted d samples bandwidth) {y : α} (hy : outcome d samples bandwidth = .ok y) :
    ∃ coefficients divisor, Cache.generatedScalars d = .ok coefficients ∧
      scale (.descriptor d) bandwidth = .ok divisor ∧ y = contract coefficients samples / divisor := by
  rcases h.outcome_cases with ⟨coefficients, divisor, hgen, hscale, -, hok⟩ | ⟨_, -, -, hfault⟩ |
    ⟨_, -, -, hfault⟩
  · exact ⟨coefficients, divisor, hgen, hscale, Except.ok.inj (hy.symm.trans hok)⟩
  · cases hy.symm.trans hfault
  · cases hy.symm.trans hfault

/-- The only faults are a division by zero and overflows. -/
theorem IsAccepted.eq_or_kind_of_error {d : Descriptor} {samples : List α} {bandwidth : Argument α}
    (h : IsAccepted d samples bandwidth) {fault : Fault α}
    (hfault : outcome d samples bandwidth = .error fault) :
    fault = .zeroDivision .real ∨ fault.kind = .overflow := by
  rcases h.outcome_cases with ⟨_, _, -, -, -, hok⟩ | ⟨_, -, -, hzero⟩ | ⟨other, -, hkind, hother⟩
  · cases hok.symm.trans hfault
  · exact .inl (Except.error.inj (hfault.symm.trans hzero))
  · exact .inr (Except.error.inj (hfault.symm.trans hother) ▸ hkind)

end Outcomes

/-! ## Bandwidths that are powers of two -/

variable [Memory]

/-- A positive double is accepted for a grid that there is room for. -/
theorem isAccepted_axis {s : Stencil} (hroom : s.length < Memory.room) {samples : List Float}
    (hlen : samples.length = s.length) (h : Positive Float) :
    IsAccepted (.axis s) samples (.real h.val) := by
  refine ⟨⟨s.coefficients.map Scalar.nearest, ?_, by simp [hlen]⟩, h, dif_pos h.isPositive⟩
  rw [Cache.generatedScalars, Descriptor.generated, Coefficients.ofStencil_eq, if_pos hroom]
  rfl

/-- There is room for an accepted grid. -/
theorem IsAccepted.length_lt {s : Stencil} {samples : List Float} {bandwidth : Argument Float}
    (h : IsAccepted (.axis s) samples bandwidth) : s.length < Memory.room := by
  obtain ⟨coefficients, hgen, -⟩ := h.sampled
  by_contra hlong
  rw [Cache.generatedScalars, Descriptor.generated, Coefficients.ofStencil_eq, if_neg hlong] at hgen
  split at hgen <;> cases hgen

/-- **The divisor for a power of two** is a power of two, unless it overflows. -/
theorem stencilScale_of_value {s : Stencil} (hroom : s.length < Memory.room) {h : Positive Float} {e : ℤ}
    (he : Binary64.toRat? h.val = some (2 ^ e)) :
    stencilScale s h =
      if e * s.order ≤ 1023 then .ok (Binary64.powerOfTwo (e * s.order))
      else .error (.tooLarge .power) := by
  have hfits : Scalar.fits (α := Float) ((s.order : ℤ) : ℚ) = true := by
    rw [Int.cast_natCast]
    exact Binary64.fits_natCast ((s.order_lt_length.trans hroom).trans Memory.room_lt)
  have hfinite : Scalar.isFinite h.val = true := Binary64.isFinite_of_isPositive h.isPositive
  have hpower : Scalar.power h.val s.order = Binary64.powerOfTwo (e * s.order) :=
    Binary64.power_of_value he s.order
  rw [stencilScale, power, Argument.scalarOfInt, if_pos hfits]
  dsimp only [bind, Except.bind]
  rw [hpower, hfinite]
  by_cases hle : e * s.order ≤ 1023
  · rw [if_pos hle, show Scalar.isFinite (Binary64.powerOfTwo (e * s.order)) = true from
      Binary64.isFinite_powerOfTwo_of_le hle]
    rfl
  · rw [if_neg hle, show Scalar.isFinite (Binary64.powerOfTwo (e * s.order)) = false from
      Binary64.isFinite_powerOfTwo_of_lt (not_le.mp hle)]
    rfl

/-- **The range of bandwidths.** For a power of two a grid is evaluated exactly if its power with the order of
the derivative lies in the range of the doubles. -/
theorem IsAccepted.exists_ok_iff_of_value {s : Stencil} {samples : List Float} {h : Positive Float}
    (haccepted : IsAccepted (.axis s) samples (.real h.val)) {e : ℤ}
    (he : Binary64.toRat? h.val = some (2 ^ e)) :
    (∃ y, outcome (.axis s) samples (.real h.val) = .ok y) ↔
      -1074 ≤ e * s.order ∧ e * s.order ≤ 1023 := by
  have hchecked : Validation.requirePositive (.real h.val) "bandwidth" = .ok h := dif_pos h.isPositive
  have hscale : scale (.descriptor (.axis s)) (.real h.val) = stencilScale s h := by
    rw [scale, hchecked]
    rfl
  rw [haccepted.exists_ok_iff, hscale, stencilScale_of_value haccepted.length_lt he]
  by_cases hle : e * s.order ≤ 1023
  · rw [if_pos hle]
    by_cases hlow : -1074 ≤ e * s.order
    · exact iff_of_true
        ⟨_, rfl, Binary64.isZero_eq_false (Binary64.powerOfTwo_of_mem hlow hle).1⟩ ⟨hlow, hle⟩
    · refine iff_of_false ?_ fun hrange => hlow hrange.1
      rintro ⟨divisor, hdivisor, hne⟩
      cases hdivisor
      rw [Binary64.powerOfTwo_of_lt (not_le.mp hlow)] at hne
      revert hne
      decide +kernel
  · rw [if_neg hle]
    refine iff_of_false ?_ fun hrange => hle hrange.2
    rintro ⟨divisor, hdivisor, -⟩
    cases hdivisor

/-! ## Evaluated grids -/

/-- **What evaluating a grid can do.** After any history, accepted arguments give a number exactly if the
divisor is found and is not zero, and then this is the quotient of the contraction by the divisor; otherwise
the fault is dividing by zero or an overflow.  If the bandwidth of a stencil is a power of two, there is a
number exactly if its power with the order of the derivative lies in the range of the doubles. -/
theorem grid_ok_iff (history : List (Operation Float)) (d : Descriptor) (samples : List Float)
    (bandwidth : Argument Float) (haccepted : IsAccepted d samples bandwidth) :
    ((∃ y, ((grid (.descriptor d) (Argument.ofReals samples) bandwidth).perform
        (Session.after history)).1 = .ok y) ↔
      ∃ divisor, scale (.descriptor d) bandwidth = .ok divisor ∧ Scalar.isZero divisor = false) ∧
    (∀ y, ((grid (.descriptor d) (Argument.ofReals samples) bandwidth).perform
        (Session.after history)).1 = .ok y →
      ∃ coefficients divisor, Cache.generatedScalars d = .ok coefficients ∧
        scale (.descriptor d) bandwidth = .ok divisor ∧ y = contract coefficients samples / divisor) ∧
    (∀ fault, ((grid (.descriptor d) (Argument.ofReals samples) bandwidth).perform
        (Session.after history)).1 = .error fault →
      fault = .zeroDivision .real ∨ fault.kind = .overflow) ∧
    ∀ (s : Stencil) (h : Positive Float) (e : ℤ), d = .axis s → bandwidth = .real h.val →
      Binary64.toRat? h.val = some (2 ^ e) →
      ((∃ y, ((grid (.descriptor d) (Argument.ofReals samples) bandwidth).perform
          (Session.after history)).1 = .ok y) ↔
        -1074 ≤ e * s.order ∧ e * s.order ≤ 1023) := by
  rw [(yields_grid d samples bandwidth).outcome_after history]
  refine ⟨haccepted.exists_ok_iff, fun y => haccepted.eq_of_ok,
    fun fault => haccepted.eq_or_kind_of_error, ?_⟩
  rintro s h e rfl rfl he
  exact haccepted.exists_ok_iff_of_value he

/-- A power of two within the range of the doubles as a bandwidth. -/
def twoPower (k : ℤ) (hlow : -1074 ≤ k) (hhigh : k ≤ 1023) : Positive Float :=
  ⟨Binary64.powerOfTwo k, (Binary64.powerOfTwo_of_mem hlow hhigh).1⟩

omit [Memory] in
/-- The central second derivative on three zeros is evaluated with the bandwidth a half. -/
theorem grid_ok_half :
    letI : Memory := .ample
    ∃ y, ((grid (.descriptor (.axis .threePointCentralSecond))
        (Argument.ofReals [Scalar.zero, Scalar.zero, Scalar.zero])
        (.real (Binary64.powerOfTwo (-1)))).perform (Session.after [])).1 = .ok y := by
  let : Memory := .ample
  have hroom : Stencil.threePointCentralSecond.length < Memory.ample.room := by decide
  let half := twoPower (-1) (by decide) (by decide)
  have haccepted : IsAccepted (.axis .threePointCentralSecond)
      [Scalar.zero, Scalar.zero, Scalar.zero] (.real half.val) :=
    isAccepted_axis hroom (by decide) half
  obtain ⟨-, -, -, hrange⟩ := grid_ok_iff [] _ _ _ haccepted
  exact (hrange _ half (-1) rfl rfl
    (Binary64.powerOfTwo_of_mem (by decide) (by decide)).2).mpr (by decide)

omit [Memory] in
/-- The checks alone do not suffice: with the bandwidth `2 ^ (-600)`, the divisor of the same grid
vanishes. -/
theorem not_ok_of_checked :
    letI : Memory := .ample
    ¬∀ (history : List (Operation Float)) (d : Descriptor) (samples : List Float)
        (bandwidth : Argument Float), IsAccepted d samples bandwidth →
      (∀ y ∈ samples, Scalar.isFinite y = true) →
      ∃ y, ((grid (.descriptor d) (Argument.ofReals samples) bandwidth).perform
        (Session.after history)).1 = .ok y := by
  let : Memory := .ample
  have hroom : Stencil.threePointCentralSecond.length < Memory.ample.room := by decide
  intro hall
  let tiny := twoPower (-600) (by decide) (by decide)
  have haccepted : IsAccepted (.axis .threePointCentralSecond)
      [Scalar.zero, Scalar.zero, Scalar.zero] (.real tiny.val) :=
    isAccepted_axis hroom (by decide) tiny
  have hok := hall [] _ _ _ haccepted (by decide +kernel)
  rw [(yields_grid _ _ _).outcome_after [], haccepted.exists_ok_iff_of_value
    (Binary64.powerOfTwo_of_mem (by decide) (by decide)).2] at hok
  revert hok
  decide

end FiniteDifference.Evaluation
