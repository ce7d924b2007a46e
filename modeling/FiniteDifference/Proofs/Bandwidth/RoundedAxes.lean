import FiniteDifference.Proofs.Bandwidth.AxisWise
import FiniteDifference.Proofs.Bandwidth.RoundUp
import FiniteDifference.Proofs.Outcomes

/-!
# Rounding along the axes

A vector of bandwidths may be rounded up when it is complete, or each of its entries as soon as it is
chosen.  Along each axis both ways accept the same answers and end with the same number, though they check
and round in a different order: what is rounded up is positive, and a checked answer is rounded up as the
answer itself.  So both ways succeed together, with the same vector.
-/

open FiniteDifference.Action

namespace FiniteDifference

/-! ## Checks and rounding -/

section Checks

variable {α : Type} [Scalar α]

/-- The name in a check matters for its fault only. -/
theorem Validation.requirePositive_rename {a : Argument α} {name : String} {h : Positive α}
    (ha : requirePositive a name = .ok h) (name' : String) : requirePositive a name' = .ok h := by
  have hpositive : ∀ {x : α}, positive x name = .ok h → positive x name' = .ok h :=
    fun hx => positive_eq_ok_iff.mpr (positive_eq_ok_iff.mp hx)
  cases a with
  | int i =>
    obtain ⟨x, hx, hchecked⟩ := bind_eq_ok.mp ha
    exact bind_eq_ok.mpr ⟨x, hx, hpositive hchecked⟩
  | real x => exact hpositive ha
  | fraction q =>
    obtain ⟨x, hx, hchecked⟩ := bind_eq_ok.mp ha
    exact bind_eq_ok.mpr ⟨x, hx, hpositive hchecked⟩
  | _ => cases ha

/-- An answer is accepted on an axis as the number that passes the check, whatever the axis. -/
theorem VectorStrategy.accept_eq_ok_iff {axis : ℕ} {a : Argument α} {y : α} (name : String) :
    accept axis a = .ok y ↔ ∃ h, Validation.requirePositive a name = .ok h ∧ h.val = y := by
  rw [accept, map_eq_ok]
  constructor
  · rintro ⟨h, hchecked, hval⟩
    exact ⟨h, Validation.requirePositive_rename hchecked name, hval⟩
  · rintro ⟨h, hchecked, hval⟩
    exact ⟨h, Validation.requirePositive_rename hchecked _, hval⟩

theorem VectorStrategy.accept_real_of_isPositive (axis : ℕ) {y : α} (hy : Scalar.isPositive y = true) :
    accept axis (.real y) = .ok y :=
  (accept_eq_ok_iff "").mpr ⟨⟨y, hy⟩, Validation.requirePositive_val ⟨y, hy⟩ "", rfl⟩

/-- A checked answer is rounded up as the number that it stands for. -/
theorem PowerOfTwo.roundUp_of_checked {a : Argument α} {h : Positive α}
    (hchecked : Validation.requirePositive a "bandwidth" = .ok h) :
    roundUp a = roundUp (.real h.val) := by
  rw [roundUp, roundUp, hchecked, Validation.requirePositive_val]

/-- An answer is rounded up if it is accepted on an axis, and then as the number that is accepted. -/
theorem PowerOfTwo.accept_bind_roundUp (axis : ℕ) {a : Argument α} {y : α} :
    (VectorStrategy.accept axis a >>= fun h => roundUp (.real h)) = .ok y ↔ roundUp a = .ok y := by
  rw [bind_eq_ok]
  constructor
  · rintro ⟨x, hx, hrounded⟩
    obtain ⟨h, hchecked, rfl⟩ := (VectorStrategy.accept_eq_ok_iff "bandwidth").mp hx
    rw [roundUp_of_checked hchecked]
    exact hrounded
  · intro hrounded
    obtain ⟨h, hchecked, -⟩ := bind_eq_ok.mp hrounded
    rw [roundUp_of_checked hchecked] at hrounded
    exact ⟨h.val, (VectorStrategy.accept_eq_ok_iff "bandwidth").mpr ⟨h, hchecked, rfl⟩, hrounded⟩

/-- What is rounded up is accepted on every axis. -/
theorem PowerOfTwo.roundUp_bind_accept (axis : ℕ) {a : Argument Float} {y : Float} :
    (roundUp a).map .real >>= VectorStrategy.accept axis = .ok y ↔ roundUp a = .ok y := by
  rw [bind_eq_ok]
  constructor
  · rintro ⟨_, hmapped, haccepted⟩
    obtain ⟨x, hx, rfl⟩ := map_eq_ok.mp hmapped
    rw [VectorStrategy.accept_real_of_isPositive axis (roundUp_eq_ok hx).1] at haccepted
    rw [hx, haccepted]
  · intro hy
    exact ⟨.real y, map_eq_ok.mpr ⟨y, hy, rfl⟩,
      VectorStrategy.accept_real_of_isPositive axis (roundUp_eq_ok hy).1⟩

end Checks

/-! ## Vectors of bandwidths -/

namespace VectorStrategy

section Outcomes

variable [Memory] {α : Type} [Scalar α]

/-- At a point with as many coordinates, the vector consists of the accepted answers. -/
theorem freshOutcome_choosePerAxis (inner : AxisStrategy α) (f : SampledFunction α)
    {descriptor point : Argument α} {t : Tensor} {xs : List α} (ht : descriptor.tensor = .ok t)
    (hpoint : Validation.requirePoint point "point" = .ok xs) (hdimension : xs.length = t.dimension) :
    (choosePerAxis inner f descriptor point).freshOutcome
      = (axesAt t xs).mapM fun axis => (ask inner f xs axis).freshOutcome >>= accept axis.2 := by
  simp only [choosePerAxis_eq_mapM inner f ht hpoint hdimension, ← freshOutcome_consult]
  exact congrArg Prod.fst
    (perform_mapM (transparent_consult inner f xs) (axesAt t xs) Cache.sound_empty)

/-- **Vectors along the axes.** One bandwidth per axis is found if the point and the tensor stencil have as
many coordinates and axes and an answer is accepted on each axis. -/
theorem choosePerAxis_eq_ok {inner : AxisStrategy α} {f : SampledFunction α}
    {descriptor point : Argument α} {hs : List α} :
    (choosePerAxis inner f descriptor point).freshOutcome = .ok hs ↔
      ∃ xs t, Validation.requirePoint point "point" = .ok xs ∧ descriptor.tensor = .ok t ∧
        xs.length = t.dimension ∧
        ((axesAt t xs).mapM fun axis => (ask inner f xs axis).freshOutcome >>= accept axis.2)
          = .ok hs := by
  constructor
  · intro hhs
    have hyields := (composed_choosePerAxis inner f descriptor point).transparent.yields
    rw [hhs, choosePerAxis] at hyields
    obtain ⟨xs, hpoint, hyields⟩ := hyields.of_ofExcept_bind
    obtain ⟨t, ht, hyields⟩ := hyields.of_ofExcept_bind
    obtain ⟨_, hsize, -⟩ := hyields.of_ofExcept_bind
    have hdimension : xs.length = t.dimension := Validation.eq_of_checkSize hsize
    rw [freshOutcome_choosePerAxis inner f ht hpoint hdimension] at hhs
    exact ⟨xs, t, hpoint, ht, hdimension, hhs⟩
  · rintro ⟨xs, t, hpoint, ht, hdimension, hanswers⟩
    rw [freshOutcome_choosePerAxis inner f ht hpoint hdimension]
    exact hanswers

/-- A strategy that rounds up answers what its strategy answers, rounded up. -/
theorem freshOutcome_ask_powerOfTwo (inner : AxisStrategy α) (f : SampledFunction α) (xs : List α)
    (axis : (Stencil × α) × ℕ) :
    (ask (.powerOfTwo inner) f xs axis).freshOutcome
      = (ask inner f xs axis).freshOutcome >>= fun a => (PowerOfTwo.roundUp a).map .real :=
  freshOutcome_bind_of_yields (transparent_ask inner f xs axis) fun _ => Yields.ofExcept_map _ _

/-- The vector of the axes is an argument. -/
theorem freshOutcome_choose_axisWise (inner : AxisStrategy α) (f : SampledFunction α)
    (descriptor point : Argument α) :
    ((axisWise inner).choose f descriptor point).freshOutcome
      = (choosePerAxis inner f descriptor point).freshOutcome.map Argument.ofReals := by
  have hchosen := freshOutcome_bind_of_yields
    (composed_choosePerAxis inner f descriptor point).transparent
    fun hs => Yields.pure (Argument.ofReals hs)
  refine hchosen.trans ?_
  cases (choosePerAxis inner f descriptor point).freshOutcome <;> rfl

/-- The vector of the axes is rounded up entry by entry. -/
theorem freshOutcome_choose_powerOfTwo_axisWise (inner : AxisStrategy α) (f : SampledFunction α)
    (descriptor point : Argument α) :
    ((powerOfTwo (axisWise inner)).choose f descriptor point).freshOutcome
      = ((choosePerAxis inner f descriptor point).freshOutcome >>=
          (·.mapM fun h => PowerOfTwo.roundUp (.real h))).map Argument.ofReals := by
  have hrounded := freshOutcome_bind_of_yields
    (composed_choose f descriptor point (axisWise inner)).transparent
    fun hs => Yields.ofExcept_map (PowerOfTwo.roundUpAll hs) Argument.ofReals
  refine hrounded.trans ?_
  rw [freshOutcome_choose_axisWise]
  cases (choosePerAxis inner f descriptor point).freshOutcome with
  | error fault => rfl
  | ok hs => exact congrArg (Except.map Argument.ofReals) (PowerOfTwo.roundUpAll_ofReals hs)

end Outcomes

variable [Memory]

/-- Along an axis, an accepted answer is rounded up to the number that is accepted when the answer is rounded
up. -/
theorem ask_powerOfTwo_eq_ok (inner : AxisStrategy Float) (f : SampledFunction Float) (xs : List Float)
    (axis : (Stencil × Float) × ℕ) (y : Float) :
    ((ask inner f xs axis).freshOutcome >>= accept axis.2 >>= fun h => PowerOfTwo.roundUp (.real h))
        = .ok y ↔
      (ask (.powerOfTwo inner) f xs axis).freshOutcome >>= accept axis.2 = .ok y := by
  rw [freshOutcome_ask_powerOfTwo, bind_assoc, bind_assoc, bind_eq_ok, bind_eq_ok]
  -- both sides are asked the same, and both are left with the answer rounded up
  exact exists_congr fun a => and_congr_right fun _ =>
    (PowerOfTwo.accept_bind_roundUp axis.2).trans (PowerOfTwo.roundUp_bind_accept axis.2).symm

/-- So are the vectors along the axes. -/
theorem choosePerAxis_powerOfTwo_eq_ok (inner : AxisStrategy Float) (f : SampledFunction Float)
    (descriptor point : Argument Float) (ys : List Float) :
    (choosePerAxis inner f descriptor point).freshOutcome >>=
        (·.mapM fun h => PowerOfTwo.roundUp (.real h)) = .ok ys ↔
      (choosePerAxis (.powerOfTwo inner) f descriptor point).freshOutcome = .ok ys := by
  simp only [bind_eq_ok, choosePerAxis_eq_ok]
  constructor
  · rintro ⟨hs, ⟨xs, t, hpoint, ht, hdimension, hanswers⟩, hrounded⟩
    have hpasses := mapM_bind_eq_ok.mp (bind_eq_ok.mpr ⟨hs, hanswers, hrounded⟩)
    exact ⟨xs, t, hpoint, ht, hdimension, (mapM_ok_congr (ask_powerOfTwo_eq_ok inner f xs)).mp hpasses⟩
  · rintro ⟨xs, t, hpoint, ht, hdimension, hanswers⟩
    have hpasses := (mapM_ok_congr (ask_powerOfTwo_eq_ok inner f xs)).mpr hanswers
    obtain ⟨hs, haccepted, hrounded⟩ := bind_eq_ok.mp (mapM_bind_eq_ok.mpr hpasses)
    exact ⟨hs, ⟨xs, t, hpoint, ht, hdimension, haccepted⟩, hrounded⟩

/-- **Rounding commutes with going along the axes.** For every strategy for one variable, every function,
every stencil and every point, and after every history: rounding up the vector of the axes gives a vector if
and only if going along the axes with the strategy that rounds up does, and this is the same vector. -/
theorem rounding_commutes (history history' : List (Operation Float)) (inner : AxisStrategy Float)
    (f : SampledFunction Float) (descriptor point answer : Argument Float) :
    (((powerOfTwo (axisWise inner)).choose f descriptor point).perform (Session.after history)).1
        = .ok answer ↔
      (((axisWise (.powerOfTwo inner)).choose f descriptor point).perform (Session.after history')).1
        = .ok answer := by
  have hvector := (composed_choose f descriptor point (powerOfTwo (axisWise inner))).transparent.yields
  have haxes := (composed_choose f descriptor point (axisWise (.powerOfTwo inner))).transparent.yields
  rw [hvector.outcome_after, haxes.outcome_after, freshOutcome_choose_powerOfTwo_axisWise,
    freshOutcome_choose_axisWise, map_eq_ok, map_eq_ok]
  simp only [choosePerAxis_powerOfTwo_eq_ok]

end VectorStrategy

end FiniteDifference
