import FiniteDifference.Bandwidth.Choice
import FiniteDifference.Proofs.Bandwidth.RoundUp
import FiniteDifference.Proofs.Number.Binade
import FiniteDifference.Proofs.Outcomes

/-!
# The least power of two

Rounding a positive double up gives the least power of two that is at least the double, among the powers of
two that are normal doubles, and fails above the greatest of them.  So rounding up is monotone and changes
nothing when it is done twice, also around a strategy.
-/

namespace FiniteDifference

namespace PowerOfTwo

/-! ## Outcomes -/

/-- **Powers of two from a number on.** The exponents of the normal doubles that are powers of two and at
least as large as the number. -/
def exponentsFrom (q : ℚ) : Set ℤ := {k | -1022 ≤ k ∧ k ≤ 1023 ∧ q ≤ 2 ^ k}

/-- A positive double is rounded up to the power of two with the exponent of its word. -/
theorem roundUp_real {x : Float} (hx : Scalar.isPositive x = true) :
    roundUp (.real x) =
      if Binary64.ceilExponent x.toBits.toNat < 2047 then
        .ok (Binary64.ofWord (Binary64.ceilExponent x.toBits.toNat * Binary64.fractionCount))
      else .error (.bandwidthOverflow x) := by
  have hchecked : Validation.requirePositive (.real x) "bandwidth" = .ok ⟨x, hx⟩ := dif_pos hx
  have hceil : Scalar.ceilPowerOfTwo? x = _ := Binary64.ceilPowerOfTwo?_eq hx
  rw [roundUp, hchecked]
  dsimp only [bind, Except.bind]
  by_cases hlt : Binary64.ceilExponent x.toBits.toNat < 2047
  · rw [hceil, if_pos hlt, if_pos hlt]
    rfl
  · rw [hceil, if_neg hlt, if_neg hlt]
    rfl

/-- A double without a positive value is refused. -/
theorem roundUp_real_of_not_positive {x : Float} (hx : ¬∃ q, Binary64.toRat? x = some q ∧ 0 < q) :
    roundUp (.real x) = .error (.invalid (.notPositive "bandwidth" x)) := by
  have hrefused : Validation.requirePositive (.real x) "bandwidth"
      = .error (.invalid (.notPositive "bandwidth" x)) := dif_neg (mt Binary64.isPositive_iff.mp hx)
  rw [roundUp, hrefused]
  rfl

/-- The value of a word that is rounded to. -/
theorem toRat?_ofWord_mul {e : ℕ} (hpos : 0 < e) (hlt : e < 2047) :
    Binary64.toRat? (Binary64.ofWord (e * Binary64.fractionCount)) = some (2 ^ ((e : ℤ) - 1023)) := by
  have hword : e * Binary64.fractionCount < Binary64.infinityWord := by
    rw [Binary64.fractionCount, Binary64.infinityWord]
    omega
  rw [Binary64.toRat?_ofWord (Nat.mul_pos hpos (by decide)) hword,
    Binary64.magnitudeValue_mul_fractionCount hpos]

/-- **What is rounded up stays.** -/
theorem roundUp_of_roundUp {a : Argument Float} {y : Float} (h : roundUp a = .ok y) :
    roundUp (.real y) = .ok y := by
  obtain ⟨checked, -, hrounded⟩ := bind_eq_ok.mp h
  have hceil : Scalar.ceilPowerOfTwo? checked.val = _ := Binary64.ceilPowerOfTwo?_eq checked.isPositive
  have hpos : 0 < Binary64.ceilExponent checked.val.toBits.toNat :=
    Binary64.ceilExponent_pos (Binary64.isPositive_iff_word.mp checked.isPositive).1
  rw [hceil] at hrounded
  generalize Binary64.ceilExponent checked.val.toBits.toNat = e at hpos hrounded
  by_cases hlt : e < 2047
  · rw [if_pos hlt] at hrounded
    cases hrounded
    -- the word of a power of two has an empty fraction, so its exponent is the one it was made from
    have hword : e * Binary64.fractionCount < Binary64.infinityWord := by
      rw [Binary64.fractionCount, Binary64.infinityWord]
      omega
    have hnormal : Scalar.isPositive (Binary64.ofWord (e * Binary64.fractionCount)) = true :=
      Binary64.isPositive_ofWord (Nat.mul_pos hpos (by decide)) hword
    rw [roundUp_real hnormal, Binary64.toNat_toBits_ofWord_of_lt hword, Binary64.ceilExponent_mul,
      if_pos hlt]
  · rw [if_neg hlt] at hrounded
    cases hrounded

/-- A vector that is rounded up stays. -/
theorem roundUpAll_of_roundUpAll {a : Argument Float} {ys : List Float} (h : roundUpAll a = .ok ys) :
    roundUpAll (Argument.ofReals ys) = .ok ys := by
  obtain ⟨_, -, hentries⟩ := bind_eq_ok.mp h
  -- every entry is the result of rounding an entry up
  have hstays := (mapM_eq_ok.mp hentries).flip.imp fun y entry hentry =>
    And.intro (roundUp_of_roundUp (bind_eq_ok.mp hentry).choose_spec.2) hentry
  rw [roundUpAll_ofReals, mapM_eq_ok, List.forall₂_same]
  exact ((List.forall₂_and_left _ _).mp hstays).1

/-! ## Exponents -/

/-- The exponents of the powers of two from a positive double on are those from the rounded one on. -/
theorem mem_exponentsFrom_iff {x : Float} {q : ℚ} (hq : Binary64.toRat? x = some q) (hpos : 0 < q)
    {k : ℤ} : k ∈ exponentsFrom q ↔
      (Binary64.ceilExponent x.toBits.toNat : ℤ) - 1023 ≤ k ∧ k ≤ 1023 := by
  have hx := Binary64.isPositive_iff.mpr ⟨q, hq, hpos⟩
  have hword := (Binary64.isPositive_iff_word.mp hx).1
  have hnormal := Binary64.ceilExponent_pos hword
  obtain rfl : Binary64.magnitudeValue x.toBits.toNat = q :=
    Option.some.inj ((Binary64.toRat?_of_isPositive hx).symm.trans hq)
  constructor
  · rintro ⟨hlow, hhigh, hvalue⟩
    exact ⟨(Binary64.magnitudeValue_le_two_zpow_iff hword hlow).mp hvalue, hhigh⟩
  · rintro ⟨hceil, hhigh⟩
    have hlow : -1022 ≤ k := by omega
    exact ⟨hlow, hhigh, (Binary64.magnitudeValue_le_two_zpow_iff hword hlow).mpr hceil⟩

/-- There is no power of two from a positive double on exactly if the double is above the greatest one. -/
theorem exponentsFrom_eq_empty_iff {q : ℚ} : exponentsFrom q = ∅ ↔ 2 ^ (1023 : ℤ) < q := by
  rw [Set.eq_empty_iff_forall_notMem]
  constructor
  · intro hnone
    by_contra hle
    exact hnone 1023 ⟨by decide, le_rfl, not_lt.mp hle⟩
  · rintro hlt k ⟨-, hhigh, hvalue⟩
    have hpower : (2 : ℚ) ^ k ≤ 2 ^ (1023 : ℤ) := zpow_le_zpow_right₀ one_le_two hhigh
    exact absurd (hlt.trans_le (hvalue.trans hpower)) (lt_irrefl _)

/-- **The least power of two.** A positive double is rounded up to the power of two with the least exponent
from the double on, if there is one. -/
theorem exists_roundUp_isLeast {x : Float} {q : ℚ} (hq : Binary64.toRat? x = some q) (hpos : 0 < q)
    (hsome : exponentsFrom q ≠ ∅) :
    ∃ y k, roundUp (.real x) = .ok y ∧ Binary64.toRat? y = some (2 ^ k) ∧
      IsLeast (exponentsFrom q) k := by
  have hx := Binary64.isPositive_iff.mpr ⟨q, hq, hpos⟩
  have hnormal := Binary64.ceilExponent_pos (Binary64.isPositive_iff_word.mp hx).1
  obtain ⟨k, hk⟩ := Set.nonempty_iff_ne_empty.mpr hsome
  obtain ⟨hceil, hhigh⟩ := (mem_exponentsFrom_iff hq hpos).mp hk
  have hlt : Binary64.ceilExponent x.toBits.toNat < 2047 := by omega
  refine ⟨_, _, (roundUp_real hx).trans (if_pos hlt), toRat?_ofWord_mul hnormal hlt, ?_, ?_⟩
  · exact (mem_exponentsFrom_iff hq hpos).mpr ⟨le_rfl, hceil.trans hhigh⟩
  · intro k' hk'
    exact ((mem_exponentsFrom_iff hq hpos).mp hk').1

/-- **Overflow.** Rounding a positive double up fails exactly if there is no power of two from the double
on. -/
theorem roundUp_eq_overflow_iff {x : Float} {q : ℚ} (hq : Binary64.toRat? x = some q) (hpos : 0 < q) :
    roundUp (.real x) = .error (.bandwidthOverflow x) ↔ exponentsFrom q = ∅ := by
  have hx := Binary64.isPositive_iff.mpr ⟨q, hq, hpos⟩
  constructor
  · intro hfault
    by_contra hsome
    obtain ⟨y, k, hok, -⟩ := exists_roundUp_isLeast hq hpos hsome
    cases hfault.symm.trans hok
  · intro hnone
    refine (roundUp_real hx).trans (if_neg fun hlt => ?_)
    have hmem : (1023 : ℤ) ∈ exponentsFrom q :=
      (mem_exponentsFrom_iff hq hpos).mpr ⟨by omega, le_rfl⟩
    rw [hnone] at hmem
    exact hmem

/-- Rounding a normal double up does not double it. -/
theorem two_zpow_lt_two_mul {q : ℚ} {k : ℤ} (hk : IsLeast (exponentsFrom q) k)
    (hnormal : 2 ^ (-1022 : ℤ) ≤ q) : 2 ^ k < 2 * q := by
  obtain ⟨⟨hlow, hhigh, hvalue⟩, hleast⟩ := hk
  have hsplit : (2 : ℚ) ^ k = 2 * 2 ^ (k - 1) := by
    rw [← zpow_one_add₀ two_ne_zero]
    congr 1
    omega
  rw [hsplit]
  refine mul_lt_mul_of_pos_left ?_ two_pos
  -- one exponent less is too small, or below the normal ones
  rcases Int.lt_or_eq_of_le hlow with hlt | rfl
  · by_contra hle
    have := hleast ⟨by omega, by omega, not_lt.mp hle⟩
    omega
  · exact (zpow_lt_zpow_right₀ one_lt_two (by decide)).trans_le hnormal

theorem exponentsFrom_subset {p q : ℚ} (h : p ≤ q) : exponentsFrom q ⊆ exponentsFrom p :=
  fun _ hk => ⟨hk.1, hk.2.1, h.trans hk.2.2⟩

/-- **Monotonicity.** If a double can be rounded up, so can every smaller one, to no greater power. -/
theorem roundUp_mono {x x' y' : Float} {q q' : ℚ} (hq : Binary64.toRat? x = some q)
    (hq' : Binary64.toRat? x' = some q') (hpos : 0 < q) (hle : q ≤ q')
    (hround : roundUp (.real x') = .ok y') :
    ∃ y r r', roundUp (.real x) = .ok y ∧ Binary64.toRat? y = some r ∧
      Binary64.toRat? y' = some r' ∧ r ≤ r' := by
  have hsubset := exponentsFrom_subset hle
  have hpos' := hpos.trans_le hle
  have hsome' : exponentsFrom q' ≠ ∅ := by
    intro hnone
    cases hround.symm.trans ((roundUp_eq_overflow_iff hq' hpos').mpr hnone)
  have hsome : exponentsFrom q ≠ ∅ := fun hnone => hsome' (Set.subset_eq_empty hsubset hnone)
  obtain ⟨y, k, hy, hvalue, -, hleast⟩ := exists_roundUp_isLeast hq hpos hsome
  obtain ⟨z, k', hz, hvalue', hmem', -⟩ := exists_roundUp_isLeast hq' hpos' hsome'
  cases hround.symm.trans hz
  exact ⟨y, _, _, hy, hvalue, hvalue', zpow_le_zpow_right₀ one_le_two (hleast (hsubset hmem'))⟩

end PowerOfTwo

/-! ## Rounding twice -/

/-- Rounding what a strategy answers up twice is rounding it up once. -/
theorem AxisStrategy.choose_powerOfTwo_powerOfTwo [Memory] (f : SampledFunction Float)
    (descriptor x : Argument Float) (strategy : AxisStrategy Float) :
    AxisStrategy.choose f descriptor x (.powerOfTwo (.powerOfTwo strategy))
      = AxisStrategy.choose f descriptor x (.powerOfTwo strategy) := by
  simp only [choose, bind_assoc, pure_bind]
  congr 1
  funext h
  cases hround : PowerOfTwo.roundUp h with
  | error fault => rfl
  | ok y =>
    show Action.ofExcept (PowerOfTwo.roundUp (.real y)) >>= _ = _
    rw [PowerOfTwo.roundUp_of_roundUp hround]

/-- Rounding a vector that a strategy answers up twice is rounding it up once. -/
theorem VectorStrategy.choose_powerOfTwo_powerOfTwo [Memory] (f : SampledFunction Float)
    (descriptor point : Argument Float) (strategy : VectorStrategy Float) :
    VectorStrategy.choose f descriptor point (.powerOfTwo (.powerOfTwo strategy))
      = VectorStrategy.choose f descriptor point (.powerOfTwo strategy) := by
  simp only [choose, bind_assoc, pure_bind]
  congr 1
  funext h
  cases hround : PowerOfTwo.roundUpAll h with
  | error fault => rfl
  | ok ys =>
    show Action.ofExcept (PowerOfTwo.roundUpAll (Argument.ofReals ys)) >>= _ = _
    rw [PowerOfTwo.roundUpAll_of_roundUpAll hround]

/-! ## All doubles -/

/-- **Rounding up every double.** A double that is not finite or not above zero is refused.  A positive one
is rounded up to the least power of two from it on, among those of the normal doubles, and this is an
overflow exactly if there is none, that is, above `2 ^ 1023`.  The power is below the double of a normal
number and is not changed by rounding it up again; it does not decrease as the number grows.  A strategy that
is wrapped twice does in every session what it does when it is wrapped once. -/
theorem PowerOfTwo.roundUp_isLeast [Memory] :
    (∀ x : Float, (¬∃ q, Binary64.toRat? x = some q ∧ 0 < q) →
      roundUp (.real x) = .error (.invalid (.notPositive "bandwidth" x))) ∧
    (∀ (x : Float) (q : ℚ), Binary64.toRat? x = some q → 0 < q →
      (roundUp (.real x) = .error (.bandwidthOverflow x) ↔ exponentsFrom q = ∅) ∧
      (exponentsFrom q = ∅ ↔ 2 ^ (1023 : ℤ) < q) ∧
      (exponentsFrom q ≠ ∅ → ∃ y k, roundUp (.real x) = .ok y ∧ Binary64.toRat? y = some (2 ^ k) ∧
        IsLeast (exponentsFrom q) k ∧ (2 ^ (-1022 : ℤ) ≤ q → q ≤ 2 ^ k ∧ 2 ^ k < 2 * q) ∧
        roundUp (.real y) = .ok y)) ∧
    (∀ (x x' y' : Float) (q q' : ℚ), Binary64.toRat? x = some q → Binary64.toRat? x' = some q' →
      0 < q → q ≤ q' → roundUp (.real x') = .ok y' →
      ∃ y r r', roundUp (.real x) = .ok y ∧ Binary64.toRat? y = some r ∧
        Binary64.toRat? y' = some r' ∧ r ≤ r') ∧
    (∀ (strategy : AxisStrategy Float) (f : SampledFunction Float) (descriptor x : Argument Float),
      AxisStrategy.choose f descriptor x (.powerOfTwo (.powerOfTwo strategy))
        = AxisStrategy.choose f descriptor x (.powerOfTwo strategy)) ∧
    ∀ (strategy : VectorStrategy Float) (f : SampledFunction Float)
      (descriptor point : Argument Float),
      VectorStrategy.choose f descriptor point (.powerOfTwo (.powerOfTwo strategy))
        = VectorStrategy.choose f descriptor point (.powerOfTwo strategy) := by
  refine ⟨fun x => roundUp_real_of_not_positive, fun x q hq hpos => ?_, fun x x' y' q q' => roundUp_mono,
    fun strategy f descriptor x => strategy.choose_powerOfTwo_powerOfTwo f descriptor x,
    fun strategy f descriptor point => strategy.choose_powerOfTwo_powerOfTwo f descriptor point⟩
  refine ⟨roundUp_eq_overflow_iff hq hpos, exponentsFrom_eq_empty_iff, fun hsome => ?_⟩
  obtain ⟨y, k, hy, hvalue, hleast⟩ := exists_roundUp_isLeast hq hpos hsome
  exact ⟨y, k, hy, hvalue, hleast, fun hnormal => ⟨hleast.1.2.2, two_zpow_lt_two_mul hleast hnormal⟩,
    roundUp_of_roundUp hy⟩

/-- The double nearest to three tenths is rounded up to a half, and the greatest double not at all. -/
theorem PowerOfTwo.roundUp_three_tenths :
    (∃ y k, roundUp (.real (Binary64.nearest (3 / 10))) = .ok y ∧
      Binary64.toRat? y = some (2 ^ k) ∧
      IsLeast (exponentsFrom (5404319552844595 / 18014398509481984)) k) ∧
    roundUp (.real (Binary64.ofWord 0x7fefffffffffffff))
      = .error (.bandwidthOverflow (Binary64.ofWord 0x7fefffffffffffff)) := by
  let : Memory := .ample
  obtain ⟨-, hpositive, -⟩ := roundUp_isLeast
  constructor
  · obtain ⟨-, hnone, hsome⟩ := hpositive (Binary64.nearest (3 / 10))
      (5404319552844595 / 18014398509481984) (by decide +kernel) (by norm_num)
    obtain ⟨y, k, hy, hvalue, hleast, -⟩ := hsome (mt hnone.mp (by decide +kernel))
    exact ⟨y, k, hy, hvalue, hleast⟩
  · obtain ⟨hoverflow, hnone, -⟩ := hpositive (Binary64.ofWord 0x7fefffffffffffff)
      (Binary64.dyadic 0x1fffffffffffff 971) (by decide +kernel) (by decide +kernel)
    exact hoverflow.mpr (hnone.mpr (by decide +kernel))

end FiniteDifference
