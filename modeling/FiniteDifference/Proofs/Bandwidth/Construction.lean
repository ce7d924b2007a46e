import FiniteDifference.Bandwidth.Strategy
import FiniteDifference.Proofs.Argument.Vectors
import FiniteDifference.Proofs.Number.Comparisons
import FiniteDifference.Proofs.Number.Range

/-!
# Numbers given to strategies

The strategies for one variable and the constants of the adaptive one are made from arguments of any kind,
which must be numbers above zero.  An argument is accepted exactly if it is a whole number, a real number or
a fraction whose double is finite and above zero; anything else is reported as invalid, except for the whole
numbers and fractions beyond the range of the doubles, whose conversion is an overflow.
-/

namespace FiniteDifference

open Binary64

/-! ## Kinds of arguments -/

namespace Argument

/-- Whole numbers, real numbers and fractions; truth values are none of them. -/
def IsNumber {α : Type} : Argument α → Prop
  | .int _ | .real _ | .fraction _ => True
  | _ => False

/-- **Beyond the range.** Whole numbers and fractions that do not round to a finite double. -/
def IsBeyondRange : Argument Float → Prop
  | .int i => rangeBound ≤ |(i : ℚ)|
  | .fraction q => rangeBound ≤ |q|
  | _ => False

/-- **Positive numbers.** Numbers whose double is finite and above zero, with a condition on its value. -/
def HasPositiveValue (P : ℚ → Prop) (v : Argument Float) : Prop :=
  v.IsNumber ∧ ∃ x q, v.toScalar = .ok x ∧ toRat? x = some q ∧ 0 < q ∧ P q

/-- **Numbers as doubles.** Only those beyond the range are not converted. -/
theorem toScalar_cases {v : Argument Float} (hv : v.IsNumber) :
    (v.IsBeyondRange ∧ ∃ why, v.toScalar = .error (.tooLarge why)) ∨
      (¬v.IsBeyondRange ∧ ∃ x, v.toScalar = .ok x) := by
  cases v with
  | int i =>
    by_cases h : Scalar.fits (α := Float) i = true
    · exact .inr ⟨not_le.mpr ((fits_iff i).mp h), _, if_pos h⟩
    · exact .inl ⟨not_lt.mp (mt (fits_iff i).mpr h), _, if_neg h⟩
  | real x => exact .inr ⟨id, x, rfl⟩
  | fraction q =>
    by_cases h : Scalar.fits (α := Float) q = true
    · exact .inr ⟨not_le.mpr ((fits_iff q).mp h), _, if_pos h⟩
    · exact .inl ⟨not_lt.mp (mt (fits_iff q).mpr h), _, if_neg h⟩
  | _ => cases hv

/-- A number that is converted has one value at most. -/
theorem hasPositiveValue_iff {P : ℚ → Prop} {v : Argument Float} (hv : v.IsNumber) {x : Float}
    (hx : v.toScalar = .ok x) :
    v.HasPositiveValue P ↔ ∃ q, toRat? x = some q ∧ 0 < q ∧ P q := by
  constructor
  · rintro ⟨-, y, q, hy, hvalue⟩
    cases hx.symm.trans hy
    exact ⟨q, hvalue⟩
  · rintro ⟨q, hvalue⟩
    exact ⟨hv, x, q, hx, hvalue⟩

/-- Numbers beyond the range have no value. -/
theorem not_hasPositiveValue_of_isBeyondRange {P : ℚ → Prop} {v : Argument Float}
    (h : v.IsBeyondRange) : ¬v.HasPositiveValue P := by
  rintro ⟨hv, x, -, hx, -⟩
  rcases toScalar_cases hv with ⟨-, why, hwhy⟩ | ⟨hrange, -⟩
  · cases hx.symm.trans hwhy
  · exact hrange h

end Argument

/-! ## Reports -/

variable {β : Type}

/-- **Reports.** What becomes of an argument that must be a positive number with a condition on its value: it
is accepted, it is invalid, or it is beyond the range and an overflow. -/
inductive Reports (P : ℚ → Prop) (v : Argument Float) : Except (Fault Float) β → Prop
  | ok (b : β) (hvalue : v.HasPositiveValue P) : Reports P v (.ok b)
  | invalid (why : Invalid Float) (hvalue : ¬v.HasPositiveValue P) (hrange : ¬v.IsBeyondRange) :
    Reports P v (.error (.invalid why))
  | tooLarge (why : TooLarge) (hrange : v.IsBeyondRange) : Reports P v (.error (.tooLarge why))

namespace Reports

variable {P : ℚ → Prop} {v : Argument Float} {result : Except (Fault Float) β}

/-- Exactly the positive numbers with the condition are accepted. -/
theorem exists_ok_iff (h : Reports P v result) : (∃ b, result = .ok b) ↔ v.HasPositiveValue P := by
  cases h with
  | ok b hvalue => exact iff_of_true ⟨b, rfl⟩ hvalue
  | invalid why hvalue => exact iff_of_false nofun hvalue
  | tooLarge why hrange => exact iff_of_false nofun (Argument.not_hasPositiveValue_of_isBeyondRange hrange)

/-- Exactly the numbers beyond the range are overflows. -/
theorem exists_tooLarge_iff (h : Reports P v result) :
    (∃ why, result = .error (.tooLarge why)) ↔ v.IsBeyondRange := by
  cases h with
  | ok b hvalue =>
    exact iff_of_false nofun fun hrange => Argument.not_hasPositiveValue_of_isBeyondRange hrange hvalue
  | invalid why hvalue hrange => exact iff_of_false nofun hrange
  | tooLarge why hrange => exact iff_of_true ⟨why, rfl⟩ hrange

end Reports

/-! ## The check on one number -/

namespace Validation

/-- Numbers are converted and then checked. -/
theorem requirePositive_of_isNumber {v : Argument Float} (hv : v.IsNumber) (name : String) :
    requirePositive v name = v.toScalar >>= (positive · name) := by
  cases v with
  | int i => rfl
  | real x => rfl
  | fraction q => rfl
  | _ => cases hv

/-- Anything else is invalid. -/
theorem requirePositive_of_not_isNumber {v : Argument Float} (hv : ¬v.IsNumber) (name : String) :
    requirePositive v name = .error (.invalid (.notReal name v.kindName)) := by
  cases v with
  | int i => exact absurd trivial hv
  | real x => exact absurd trivial hv
  | fraction q => exact absurd trivial hv
  | _ => rfl

variable {P : ℚ → Prop} {next : Positive Float → Except (Fault Float) β}

/-- **Checks and what follows.** If what follows the check accepts exactly the values with a condition and
reports the others as invalid, so does the whole. -/
theorem reports_requirePositive_bind (v : Argument Float) (name : String)
    (hok : ∀ h q, toRat? h.val = some q → P q → ∃ b, next h = .ok b)
    (hinvalid : ∀ h q, toRat? h.val = some q → ¬P q → ∃ why, next h = .error (.invalid why)) :
    Reports P v (requirePositive v name >>= next) := by
  by_cases hv : v.IsNumber
  · rw [requirePositive_of_isNumber hv]
    rcases Argument.toScalar_cases hv with ⟨hrange, why, hwhy⟩ | ⟨hrange, x, hx⟩
    · rw [hwhy]
      exact .tooLarge why hrange
    · rw [hx]
      show Reports P v (positive x name >>= next)
      by_cases hpos : isPositive x = true
      · obtain ⟨q, hq, hqpos⟩ := isPositive_iff.mp hpos
        have hvalue : v.HasPositiveValue P ↔ P q := by
          rw [Argument.hasPositiveValue_iff hv hx, hq]
          simp [hqpos]
        rw [show positive x name = .ok ⟨x, hpos⟩ from dif_pos hpos]
        show Reports P v (next ⟨x, hpos⟩)
        by_cases hP : P q
        · obtain ⟨b, hb⟩ := hok ⟨x, hpos⟩ q hq hP
          rw [hb]
          exact .ok b (hvalue.mpr hP)
        · obtain ⟨why, hwhy⟩ := hinvalid ⟨x, hpos⟩ q hq hP
          rw [hwhy]
          exact .invalid why (mt hvalue.mp hP) hrange
      · rw [show positive x name = .error (.invalid (.notPositive name x)) from dif_neg hpos]
        refine .invalid _ ?_ hrange
        rw [Argument.hasPositiveValue_iff hv hx]
        rintro ⟨q, hq, hqpos, -⟩
        exact hpos (isPositive_iff.mpr ⟨q, hq, hqpos⟩)
  · rw [requirePositive_of_not_isNumber hv]
    refine .invalid _ (fun hvalue => hv hvalue.1) fun hrange => hv ?_
    cases v with
    | int i => trivial
    | fraction q => trivial
    | _ => cases hrange

/-- **Checks alone.** If what follows the check always succeeds, the check alone decides. -/
theorem reports_requirePositive_map (v : Argument Float) (name : String)
    (hok : ∀ h, ∃ b, next h = .ok b) :
    Reports (fun _ => True) v (requirePositive v name >>= next) :=
  reports_requirePositive_bind v name (fun h _ _ _ => hok h) fun _ _ _ hfalse => absurd trivial hfalse

end Validation

/-! ## Constructions -/

open Validation

/-- A trial bandwidth that is given is checked after the condition error. -/
theorem AxisStrategy.ofTrial_of_ne_absent (epsilon : Argument Float) {trial : Argument Float}
    (h : trial ≠ .absent) (config : AdaptiveConfig Float) :
    ofTrial epsilon trial config = requirePositive epsilon "epsilon" >>= fun e =>
      requirePositive trial "trial_bandwidth" >>= fun t => .ok (.adaptive e (some t) config) := by
  cases trial with
  | absent => exact absurd rfl h
  | _ => rfl

/-- **Invalid numbers are reported.** The fixed strategy, the rule of thumb, the adaptive strategy with its
condition error and its trial bandwidth, and the two constants of the adaptive strategy accept exactly the
numbers whose double is finite and above zero, and above one for the ratio of two bandwidths.  Any other
argument is invalid, except for whole numbers and fractions beyond the range, which are overflows. -/
theorem constructions_report (v : Argument Float) :
    Reports (fun _ => True) v (AxisStrategy.ofBandwidth v) ∧
    Reports (fun _ => True) v (AxisStrategy.ofRule v) ∧
    (∀ trial config, (trial = .absent ∨ ∃ t, requirePositive trial "trial_bandwidth" = .ok t) →
      Reports (fun _ => True) v (AxisStrategy.ofTrial v trial config)) ∧
    (∀ epsilon config, (∃ e, requirePositive epsilon "epsilon" = .ok e) → v ≠ .absent →
      Reports (fun _ => True) v (AxisStrategy.ofTrial epsilon v config)) ∧
    (∀ scale, (∃ b, requirePositive scale "trial_scale" = .ok b) →
      Reports (1 < ·) v (AdaptiveConfig.ofArguments v scale)) ∧
    ∀ ratio, (∃ r, requirePositive ratio "step_ratio" = .ok r ∧ Scalar.lt Scalar.one r.val = true) →
      Reports (fun _ => True) v (AdaptiveConfig.ofArguments ratio v) := by
  refine ⟨?_, ?_, fun trial config htrial => ?_, fun epsilon config hepsilon hv => ?_,
    fun scale hscale => ?_, fun ratio hratio => ?_⟩
  · exact reports_requirePositive_map v "bandwidth" fun h => ⟨_, rfl⟩
  · exact reports_requirePositive_map v "epsilon" fun h => ⟨_, rfl⟩
  · refine reports_requirePositive_map v "epsilon" fun h => ?_
    rcases htrial with rfl | ⟨t, ht⟩
    · exact ⟨_, rfl⟩
    · cases trial with
      | absent => exact ⟨_, rfl⟩
      | _ => exact ⟨.adaptive h (some t) config, congrArg (· >>= _) ht⟩
  · obtain ⟨e, he⟩ := hepsilon
    rw [AxisStrategy.ofTrial_of_ne_absent epsilon hv, he]
    exact reports_requirePositive_map v "trial_bandwidth" fun h => ⟨_, rfl⟩
  · obtain ⟨b, hb⟩ := hscale
    refine reports_requirePositive_bind v "step_ratio" (fun h q hq hlt => ?_) fun h q hq hle => ?_
    · rw [dif_pos ((one_lt_iff h.isPositive hq).mpr hlt), hb]
      exact ⟨_, rfl⟩
    · rw [dif_neg (mt (one_lt_iff h.isPositive hq).mp hle)]
      exact ⟨_, rfl⟩
  · obtain ⟨r, hr, hlt⟩ := hratio
    rw [AdaptiveConfig.ofArguments, hr]
    show Reports _ v (if h : Scalar.lt Scalar.one r.val = true then _ else _)
    rw [dif_pos hlt]
    exact reports_requirePositive_map v "trial_scale" fun h => ⟨_, rfl⟩

/-- The constants that stand where none are given. -/
def AdaptiveConfig.doubling : AdaptiveConfig Float :=
  ⟨⟨Scalar.nearest 2, by decide +kernel⟩, ⟨Scalar.nearest 2, by decide +kernel⟩, by decide +kernel, default,
    default⟩

/-- Three is accepted wherever a number is needed, and ten to the power of four hundred is an overflow. -/
theorem constructions_report_three :
    (∃ s, AxisStrategy.ofTrial (.int 3) .absent .doubling = .ok s) ∧
      (∃ s, AxisStrategy.ofTrial defaultEpsilon (.int 3) .doubling = .ok s) ∧
      (∃ c, AdaptiveConfig.ofArguments (α := Float) (.int 3) AdaptiveConfig.default = .ok c) ∧
      (∃ c, AdaptiveConfig.ofArguments (α := Float) AdaptiveConfig.default (.int 3) = .ok c) ∧
      ∃ why, (AxisStrategy.ofBandwidth (.int (10 ^ 400)) : Except (Fault Float) _)
        = .error (.tooLarge why) := by
  obtain ⟨-, -, hepsilon, htrial, hratio, hscale⟩ := constructions_report (.int 3)
  obtain ⟨hfixed, -⟩ := constructions_report (.int (10 ^ 400))
  have hscalar : (Argument.int 3).toScalar = .ok (Scalar.nearest (α := Float) 3) :=
    show Argument.scalarOfInt 3 = _ from if_pos (by decide +kernel)
  have hrange : (Argument.int (10 ^ 400)).IsBeyondRange :=
    not_lt.mp (mt (fits_iff ((10 ^ 400 : ℤ) : ℚ)).mpr (by decide +kernel))
  have hthree : ∀ P : ℚ → Prop, P 3 → (Argument.int 3).HasPositiveValue P := fun P hP =>
    ⟨trivial, _, 3, hscalar, by decide +kernel, by decide, hP⟩
  have hscale' := requirePositive_val AdaptiveConfig.doubling.trialScale "trial_scale"
  have hratio' := requirePositive_val AdaptiveConfig.doubling.stepRatio "step_ratio"
  have hepsilon' := requirePositive_val (α := Float) ⟨Scalar.epsilon, by decide +kernel⟩ "epsilon"
  exact ⟨(hepsilon .absent _ (.inl rfl)).exists_ok_iff.mpr (hthree _ trivial),
    (htrial _ _ ⟨_, hepsilon'⟩ nofun).exists_ok_iff.mpr (hthree _ trivial),
    (hratio _ ⟨_, hscale'⟩).exists_ok_iff.mpr (hthree _ (by norm_num)),
    (hscale _ ⟨_, hratio', AdaptiveConfig.doubling.one_lt_stepRatio⟩).exists_ok_iff.mpr
      (hthree _ trivial), hfixed.exists_tooLarge_iff.mpr hrange⟩

/-- **Unreported numbers.** A ratio far below zero is neither accepted nor invalid. -/
theorem not_reported_beyond_range :
    ¬∀ v : Argument Float, (∃ c, AdaptiveConfig.ofArguments v AdaptiveConfig.default = .ok c) ∨
      ∃ why, AdaptiveConfig.ofArguments v AdaptiveConfig.default = .error (.invalid why) := by
  intro hall
  have hconverted : (Argument.scalarOfInt (-(2 ^ 1024)) : Except (Fault Float) Float)
      = .error (.tooLarge .integer) := if_neg (by decide +kernel)
  have hfault : AdaptiveConfig.ofArguments (α := Float) (.int (-(2 ^ 1024))) AdaptiveConfig.default
      = .error (.tooLarge .integer) := by
    rw [AdaptiveConfig.ofArguments, requirePositive, hconverted]
    rfl
  rcases hall (.int (-(2 ^ 1024))) with ⟨c, hc⟩ | ⟨why, hwhy⟩
  · cases hc.symm.trans hfault
  · cases hwhy.symm.trans hfault

end FiniteDifference
