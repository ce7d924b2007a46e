import FiniteDifference.Proofs.Argument.Vectors
import FiniteDifference.Proofs.Bandwidth.LeastPower

/-!
# Bandwidths are positive

Whatever a function answers and whatever a foreign strategy proposes, a strategy of the library either
fails or returns finite bandwidths above zero.  The checks that ensure this are made at different places:
on the closed form, on what is rounded up, on the axes, and on the trial bandwidth when the truncation
coefficient is estimated, before it can be returned itself.
-/

open FiniteDifference.Action

namespace FiniteDifference

/-! ## Checks -/

theorem Validation.isPositive_of_requirePositive_real {x : Float} {name : String}
    {h : Positive Float} (hx : requirePositive (.real x) name = .ok h) :
    Scalar.isPositive x = true := by
  rw [← positive_eq_ok_iff.mp hx]
  exact h.isPositive

/-! ## Strategies for one variable -/

variable [Memory]

/-- The rule of thumb checks its closed form. -/
theorem RuleOfThumb.returns_positive (epsilon : Positive Float) (descriptor x : Argument Float) :
    Returns (choose epsilon descriptor x) fun y => Scalar.isPositive y = true := by
  unfold choose
  refine .after fun s => .ite (.pure Binary64.isPositive_one) ?_
  refine .after fun x => .after fun norm => .after fun h => .after fun checked => ?_
  exact .pure checked.isPositive

/-- An estimate of the truncation coefficient succeeds for positive trial bandwidths only. -/
theorem Adaptive.returns_trial_positive (config : AdaptiveConfig Float) (f : SampledFunction Float)
    (descriptor x : Argument Float) (h₂ : Float) :
    Returns (truncationCoefficient config f descriptor x (.real h₂)) fun _ =>
      Scalar.isPositive h₂ = true := by
  unfold truncationCoefficient
  refine .bind (P := fun _ => Scalar.isPositive h₂ = true)
    (.ofExcept fun _ h => Validation.isPositive_of_requirePositive_real h) fun _ hpos => ?_
  intro session b _
  exact hpos

/-- The adaptive strategy checks its closed form, and its trial bandwidth before it returns it. -/
theorem Adaptive.returns_positive (epsilon : Positive Float) (trial : Option (Positive Float))
    (config : AdaptiveConfig Float) (f : SampledFunction Float) (descriptor x : Argument Float) :
    Returns (choose epsilon trial config f descriptor x) fun y => Scalar.isPositive y = true := by
  unfold choose
  refine .after fun s => .ite (.pure Binary64.isPositive_one) (.after fun h₂ => ?_)
  refine .bind (returns_trial_positive config f descriptor x h₂) fun coefficient hpos => ?_
  refine .ite (.after fun _ => .pure hpos) (.after fun samples => ?_)
  refine .ite (.after fun _ => .pure hpos) (.after fun norm => .after fun h => .after fun checked => ?_)
  exact .pure checked.isPositive

namespace AxisStrategy

/-- **Univariate bandwidths.** A strategy of the library, perhaps over a foreign one, returns a positive
number, a power of two of a normal double if it rounds up. -/
theorem returns_positive (strategy : AxisStrategy Float) (hown : ∀ g, strategy ≠ .foreign g)
    (f : SampledFunction Float) (descriptor x : Argument Float) :
    Returns (strategy.choose f descriptor x) fun a =>
      ∃ y, a = .real y ∧ Scalar.isPositive y = true ∧
        ∀ inner, strategy = .powerOfTwo inner →
          ∃ k : ℤ, -1022 ≤ k ∧ k ≤ 1023 ∧ Binary64.toRat? y = some (2 ^ k) := by
  cases strategy with
  | fixed h =>
    refine .pure ⟨h.val, rfl, h.isPositive, ?_⟩
    intro inner heq
    cases heq
  | ruleOfThumb epsilon =>
    refine .bind (RuleOfThumb.returns_positive epsilon descriptor x) fun y hy => .pure ⟨y, rfl, hy, ?_⟩
    intro inner heq
    cases heq
  | adaptive epsilon trial config =>
    refine .bind (Adaptive.returns_positive epsilon trial config f descriptor x) fun y hy =>
      .pure ⟨y, rfl, hy, ?_⟩
    intro inner heq
    cases heq
  | powerOfTwo inner =>
    rw [choose]
    refine .after fun h => .bind (.ofExcept fun y hy => PowerOfTwo.roundUp_eq_ok hy) fun y hy => ?_
    exact .pure ⟨y, rfl, hy.1, fun _ _ => hy.2⟩
  | foreign g => exact absurd rfl (hown g)

end AxisStrategy

/-! ## Strategies for several variables -/

namespace VectorStrategy

/-- Strategies made of the library alone, up to what is applied along each axis. -/
def IsOwn : VectorStrategy Float → Prop
  | .fixed _ => True
  | .axisWise _ => True
  | .powerOfTwo inner => inner.IsOwn
  | .foreign _ => False

/-- One positive bandwidth per axis, in an argument. -/
def ArePositive (n : ℕ) (a : Argument Float) : Prop :=
  ∃ ys, a = Argument.ofReals ys ∧ ys.length = n ∧ ∀ y ∈ ys, Scalar.isPositive y = true

/-- Along the axes there is one positive bandwidth for each. -/
theorem returns_positive_along (inner : AxisStrategy Float) (f : SampledFunction Float)
    (point : List Float) (axis : ℕ) (axes : List (Stencil × Float)) :
    Returns (chooseAlong inner f point axis axes) fun ys =>
      ys.length = axes.length ∧ ∀ y ∈ ys, Scalar.isPositive y = true := by
  induction axes generalizing axis with
  | nil => exact .pure ⟨rfl, fun y hy => absurd hy List.not_mem_nil⟩
  | cons sx axes ih =>
    obtain ⟨s, x⟩ := sx
    rw [chooseAlong]
    refine .after fun answer => .after fun h => .bind (ih (axis + 1)) fun ys hys => .pure ⟨?_, ?_⟩
    · rw [List.length_cons, List.length_cons, hys.1]
    · rw [List.forall_mem_cons]
      exact ⟨h.isPositive, hys.2⟩

omit [Memory] in
/-- Fixed bandwidths are positive, and as many as a tensor stencil has axes. -/
theorem chooseFixed_eq_ok {hs : List (Positive Float)} {descriptor point : Argument Float}
    {ys : List Float} {t : Tensor} (ht : descriptor.tensor = .ok t)
    (h : chooseFixed hs descriptor point = .ok ys) :
    ys.length = t.dimension ∧ ∀ y ∈ ys, Scalar.isPositive y = true := by
  obtain ⟨xs, -, hrest⟩ := bind_eq_ok.mp h
  obtain ⟨_, -, hdescriptor⟩ := bind_eq_ok.mp hrest
  split at hdescriptor
  · cases ht
  · obtain ⟨t', ht', hdimension⟩ := bind_eq_ok.mp hdescriptor
    obtain ⟨_, hsize, hys⟩ := bind_eq_ok.mp hdimension
    have hsame : t' = t := Except.ok.inj (ht'.symm.trans ht)
    cases hys
    rw [hsame] at hsize
    refine ⟨?_, fun y hy => ?_⟩
    · rw [List.length_map]
      exact (Validation.eq_of_checkSize hsize).symm
    · obtain ⟨h, -, rfl⟩ := List.mem_map.mp hy
      exact h.isPositive

/-- **Multivariate bandwidths.** A strategy of the library, applied along the axes to any strategy for
one variable, returns one positive number per axis. -/
theorem returns_positive {strategy : VectorStrategy Float} (hown : strategy.IsOwn)
    (f : SampledFunction Float) {descriptor : Argument Float} {t : Tensor}
    (ht : descriptor.tensor = .ok t) (point : Argument Float) :
    Returns (strategy.choose f descriptor point) (ArePositive t.dimension) := by
  induction strategy with
  | fixed hs =>
    rw [choose]
    refine .bind (.ofExcept fun ys hys => chooseFixed_eq_ok ht hys) fun ys hys => ?_
    exact .pure ⟨ys, rfl, hys⟩
  | axisWise inner =>
    rw [choose]
    refine .bind (P := fun ys => ys.length = t.dimension ∧ ∀ y ∈ ys, Scalar.isPositive y = true) ?_
      fun ys hys => .pure ⟨ys, rfl, hys⟩
    unfold choosePerAxis
    refine .after fun xs => .bind (P := fun t' => t' = t) (.ofExcept fun t' ht' => ?_) ?_
    · rw [ht] at ht'
      cases ht'
      rfl
    · rintro t' rfl
      refine .bind (.ofExcept fun _ hsize => Validation.eq_of_checkSize hsize) fun _ hsize => ?_
      refine (returns_positive_along inner f xs 0 (t'.axes.zip xs)).mono fun ys hys => ⟨?_, hys.2⟩
      rw [hys.1, List.length_zip, hsize]
      exact Nat.min_self _
  | powerOfTwo inner ih =>
    rw [choose]
    refine .bind (ih hown) ?_
    rintro _ ⟨xs, rfl, hxs⟩
    refine .bind (.ofExcept fun ys hys => PowerOfTwo.roundUpAll_ofReals_eq_ok hys) fun ys hys => ?_
    exact .pure ⟨ys, rfl, hys.1.trans hxs.1, hys.2⟩
  | foreign g => exact hown.elim

end VectorStrategy

/-! ## Strategies around others -/

/-- A strategy that rounds up answers what the strategy in it does, rounded up. -/
theorem AxisStrategy.perform_choose_powerOfTwo {inner : AxisStrategy Float} {f : SampledFunction Float}
    {descriptor x h : Argument Float} {session after : Session Float} {y : Float}
    (hinner : (inner.choose f descriptor x).perform session = (.ok h, after))
    (hround : PowerOfTwo.roundUp h = .ok y) :
    ((powerOfTwo inner).choose f descriptor x).perform session = (.ok (.real y), after) := by
  rw [choose, perform_bind_ok hinner, hround]
  rfl

theorem VectorStrategy.perform_choose_powerOfTwo {inner : VectorStrategy Float}
    {f : SampledFunction Float} {descriptor point h : Argument Float} {session after : Session Float}
    {ys : List Float} (hinner : (inner.choose f descriptor point).perform session = (.ok h, after))
    (hround : PowerOfTwo.roundUpAll h = .ok ys) :
    ((powerOfTwo inner).choose f descriptor point).perform session
      = (.ok (Argument.ofReals ys), after) := by
  rw [choose, perform_bind_ok hinner, hround]
  rfl

theorem VectorStrategy.chooseAlong_constant (name detail : String) (h : Positive Float)
    (f : SampledFunction Float) (point : List Float) (axis : ℕ) (axes : List (Stencil × Float)) :
    chooseAlong (.foreign (.constant name detail (.real h.val))) f point axis axes
      = Pure.pure (List.replicate axes.length h.val) := by
  induction axes generalizing axis with
  | nil => rfl
  | cons sx axes ih =>
    rw [chooseAlong, ih]
    show (Action.ofExcept (Validation.requirePositive (.real h.val) (axisName axis)) >>= _) = _
    rw [Validation.requirePositive_val]
    rfl

/-- A foreign strategy that always answers the same bandwidth answers it for each axis, at every point with as
many coordinates. -/
theorem VectorStrategy.perform_choose_constant (name detail : String) (h : Positive Float)
    (f : SampledFunction Float) {t : Tensor} {xs : List Float} (hdimension : xs.length = t.dimension)
    (session : Session Float) :
    ((axisWise (.foreign (.constant name detail (.real h.val)))).choose f (.descriptor (.tensor t))
        (Argument.ofReals xs)).perform session
      = (.ok (Argument.ofReals (List.replicate t.dimension h.val)), session) := by
  have haxes : (t.axes.zip xs).length = t.dimension := by
    rw [List.length_zip, hdimension]
    exact Nat.min_self _
  have hsize : (Validation.checkSize xs.length t.dimension "point dimension" : Except (Fault Float) Unit)
      = .ok () := if_pos hdimension
  rw [choose, choosePerAxis, Validation.requirePoint_ofReals]
  show ((Action.ofExcept (Validation.checkSize xs.length t.dimension "point dimension") >>= fun _ =>
    chooseAlong _ f xs 0 (t.axes.zip xs)) >>= _).perform session = _
  rw [hsize, chooseAlong_constant, haxes]
  rfl

/-! ## Both kinds of strategies -/

/-- **No invalid bandwidth leaves a strategy.** From every session, for every function, stencil and
point: a univariate strategy that is not itself a foreign one answers a finite number above zero if it
answers, and this is a power of two between `2 ^ (-1022)` and `2 ^ 1023` if the strategy rounds up; a
multivariate strategy of the library answers as many finite numbers above zero as the stencil has axes. -/
theorem strategies_return_positive :
    (∀ strategy : AxisStrategy Float, (∀ g, strategy ≠ .foreign g) →
      ∀ f descriptor x, Returns (strategy.choose f descriptor x) fun a =>
        ∃ y q, a = .real y ∧ Binary64.toRat? y = some q ∧ 0 < q ∧
          ∀ inner, strategy = .powerOfTwo inner → ∃ k : ℤ, -1022 ≤ k ∧ k ≤ 1023 ∧ q = 2 ^ k) ∧
    ∀ strategy : VectorStrategy Float, strategy.IsOwn →
      ∀ f (t : Tensor) point, Returns (strategy.choose f (.descriptor (.tensor t)) point) fun a =>
        ∃ ys, a = Argument.ofReals ys ∧ ys.length = t.dimension ∧
          ∀ y ∈ ys, ∃ q, Binary64.toRat? y = some q ∧ 0 < q := by
  constructor
  · intro strategy hown f descriptor x
    refine (strategy.returns_positive hown f descriptor x).mono ?_
    rintro _ ⟨y, rfl, hy, hrounded⟩
    obtain ⟨q, hq, hpos⟩ := Binary64.isPositive_iff.mp hy
    refine ⟨y, q, rfl, hq, hpos, fun inner hinner => ?_⟩
    obtain ⟨k, hlow, hhigh, hk⟩ := hrounded inner hinner
    exact ⟨k, hlow, hhigh, Option.some.inj (hq.symm.trans hk)⟩
  · intro strategy hown f t point
    refine (VectorStrategy.returns_positive hown f rfl point).mono ?_
    rintro _ ⟨ys, rfl, hlength, hpositive⟩
    exact ⟨ys, rfl, hlength, fun y hy => Binary64.isPositive_iff.mp (hpositive y hy)⟩

/-! ## A foreign strategy inside -/

/-- The double nearest to three tenths. -/
def threeTenths : Positive Float := ⟨Binary64.nearest (3 / 10), by decide +kernel⟩

/-- The foreign strategy that always answers three tenths. -/
def threeTenthsAlways : AxisStrategy Float :=
  .foreign (.constant "ThreeTenths" "" (.real threeTenths.val))

/-- A tensor stencil with two axes. -/
def twoAxes : Tensor := ⟨[.threePointCentral, .fivePointCentral], List.cons_ne_nil _ _⟩

omit [Memory] in
/-- What a foreign strategy answers is rounded up twice for one variable, and once along the two axes for
several.  Both of the strategies around it answer. -/
theorem strategies_return_positive_threeTenths :
    letI : Memory := .ample
    let single : AxisStrategy Float := .powerOfTwo (.powerOfTwo threeTenthsAlways)
    let several : VectorStrategy Float := .powerOfTwo (.axisWise threeTenthsAlways)
    let f : SampledFunction Float := .rule fun _ => .ok .absent
    (∀ g, single ≠ .foreign g) ∧ several.IsOwn ∧
    (∃ y q, ((single.choose f .absent .absent).perform .empty).1 = .ok (.real y) ∧
      Binary64.toRat? y = some q ∧ 0 < q ∧ ∃ k : ℤ, -1022 ≤ k ∧ k ≤ 1023 ∧ q = 2 ^ k) ∧
    ∃ ys, ((several.choose f (.descriptor (.tensor twoAxes))
        (Argument.ofReals [Scalar.zero, Scalar.one])).perform .empty).1 = .ok (Argument.ofReals ys) ∧
      ys.length = 2 ∧ ∀ y ∈ ys, ∃ q, Binary64.toRat? y = some q ∧ 0 < q := by
  let : Memory := .ample
  intro single several f
  obtain ⟨hsingle, hseveral⟩ := strategies_return_positive
  have hforeign : ∀ g, AxisStrategy.powerOfTwo (.powerOfTwo threeTenthsAlways) ≠ .foreign g := nofun
  -- three tenths can be rounded up, and the power of two once more
  obtain ⟨y, hround⟩ : ∃ y, PowerOfTwo.roundUp (.real threeTenths.val) = .ok y := by
    rw [PowerOfTwo.roundUp_real threeTenths.isPositive, if_pos (by decide +kernel)]
    exact ⟨_, rfl⟩
  have hvector : PowerOfTwo.roundUpAll (Argument.ofReals [threeTenths.val, threeTenths.val])
      = .ok [y, y] := by
    rw [PowerOfTwo.roundUpAll_ofReals, List.mapM_cons, List.mapM_cons, hround]
    rfl
  have hdimension : [(Scalar.zero : Float), Scalar.one].length = twoAxes.dimension := rfl
  have haxes := VectorStrategy.perform_choose_constant "ThreeTenths" "" threeTenths f hdimension .empty
  have hone : (single.choose f .absent .absent).perform .empty = (.ok (.real y), .empty) :=
    AxisStrategy.perform_choose_powerOfTwo (AxisStrategy.perform_choose_powerOfTwo rfl hround)
      (PowerOfTwo.roundUp_of_roundUp hround)
  have htwo := VectorStrategy.perform_choose_powerOfTwo haxes hvector
  refine ⟨hforeign, trivial, ?_, ?_⟩
  · obtain ⟨_, q, hz, hq, hpos, hpower⟩ := hsingle single hforeign f .absent .absent .empty _
      (congrArg Prod.fst hone)
    cases hz
    exact ⟨y, q, congrArg Prod.fst hone, hq, hpos, hpower _ rfl⟩
  · obtain ⟨ys, hys, hlength, hpositive⟩ := hseveral several trivial f twoAxes _ .empty _
      (congrArg Prod.fst htwo)
    exact ⟨ys, (congrArg Prod.fst htwo).trans (congrArg Except.ok hys), hlength, hpositive⟩

end FiniteDifference
