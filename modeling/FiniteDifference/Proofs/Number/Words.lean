import FiniteDifference.Number.Binary64
import Mathlib

/-!
# Values of doubles

The rational value of a finite double, read off its word.  The positive doubles are the finite ones with
a value above zero, and the words with an empty fraction are the powers of two.
-/

namespace FiniteDifference.Binary64

/-! ## Words -/

open Float.Model in
theorem toNat_unpackExponent (b : BitVec Format.binary64.numBits) :
    (UnpackedFloat.unpackExponent b).toNat = b.toNat / 2 ^ 52 % 2 ^ 11 := by
  rw [UnpackedFloat.unpackExponent_def, BitVec.extractLsb'_toNat, Nat.shiftRight_eq_div_pow]

open Float.Model in
theorem toNat_unpackMantissa (b : BitVec Format.binary64.numBits) :
    (UnpackedFloat.unpackMantissa b).toNat = b.toNat % 2 ^ 52 := by
  rw [UnpackedFloat.unpackMantissa_def, BitVec.extractLsb'_toNat, Nat.shiftRight_zero]

open Float.Model in
/-- **The word of a finite double** is the one that it was made from: unpacking and packing changes the
words of the missing number alone. -/
theorem toNat_toBits_ofWord {word : ℕ} (hword : word < 2 ^ 64)
    (hfinite : word % signPlace < infinityWord) : (ofWord word).toBits.toNat = word := by
  have hnat : (BitVec.ofNat 64 word).toNat = word := by
    rw [BitVec.toNat_ofNat, Nat.mod_eq_of_lt hword]
  have hnumber : ¬@UnpackedFloat.isNaNBits .binary64 (BitVec.ofNat 64 word) := by
    rw [UnpackedFloat.isNaNBits, decide_eq_true_eq]
    rintro ⟨hexponent, -⟩
    have hvalue := toNat_unpackExponent (BitVec.ofNat 64 word)
    rw [hexponent, hnat] at hvalue
    change 2047 = _ at hvalue
    rw [signPlace, infinityWord] at hfinite
    omega
  change (UnpackedFloat.pack .binary64
    (UnpackedFloat.unpack .binary64 (BitVec.ofNat 64 word))).toNat = word
  rw [UnpackedFloat.pack_unpack, if_neg hnumber, hnat]

/-- The double with a word below the one of infinity has this word. -/
theorem toNat_toBits_ofWord_of_lt {word : ℕ} (hlt : word < infinityWord) :
    (ofWord word).toBits.toNat = word := by
  have hbound : word < signPlace := hlt.trans (by decide)
  exact toNat_toBits_ofWord (hbound.trans (by decide)) (by rwa [Nat.mod_eq_of_lt hbound])

/-! ## Values of words -/

/-- A dyadic number is its significand times a power of two. -/
theorem dyadic_eq (m : ℕ) (k : ℤ) : dyadic m k = m * 2 ^ k := by
  rw [dyadic, Rat.mkRat_eq_div, Nat.shiftLeft_eq, Nat.shiftLeft_eq, Nat.one_mul]
  push_cast
  obtain hk | hk := le_or_gt 0 k
  · have hneg : (-k).toNat = 0 := by omega
    obtain ⟨n, rfl⟩ := Int.eq_ofNat_of_zero_le hk
    rw [hneg, Int.toNat_natCast, zpow_natCast, pow_zero, div_one]
  · have hpos : k.toNat = 0 := by omega
    have hcast : ((-k).toNat : ℤ) = -k := Int.toNat_of_nonneg (by omega)
    rw [hpos, pow_zero, mul_one, div_eq_mul_inv, ← zpow_natCast, hcast, zpow_neg, inv_inv]

/-- A word other than zero has a positive significand. -/
theorem significand_pos {word : ℕ} (h : 0 < word) : 0 < significand word := by
  rw [significand]
  split
  · exact h
  · rw [fractionCount]
    omega

theorem magnitudeValue_pos {word : ℕ} (h : 0 < word) : 0 < magnitudeValue word := by
  have hm : (0 : ℚ) < significand word := Nat.cast_pos.mpr (significand_pos h)
  rw [magnitudeValue, dyadic_eq]
  positivity

theorem magnitudeValue_zero : magnitudeValue 0 = 0 := by
  rw [magnitudeValue, dyadic_eq]
  exact mul_eq_zero_of_left Nat.cast_zero _

/-- **Powers of two.** A normal word with an empty fraction. -/
theorem magnitudeValue_mul_fractionCount {e : ℕ} (h : 0 < e) :
    magnitudeValue (e * fractionCount) = 2 ^ ((e : ℤ) - 1023) := by
  have hpos : 0 < fractionCount := by decide
  have hnormal : ¬e * fractionCount < fractionCount := by
    have : fractionCount ≤ e * fractionCount := Nat.le_mul_of_pos_left _ h
    omega
  have hplace : lastPlace (e * fractionCount) = (e : ℤ) - 1075 := by
    have hmax : Nat.max 1 e = e := Nat.max_eq_right h
    rw [lastPlace, Nat.mul_div_cancel _ hpos, hmax]
  have hcount : (fractionCount : ℚ) = 2 ^ (52 : ℤ) := by
    have hpow : fractionCount = 2 ^ 52 := by decide
    rw [hpow, Nat.cast_pow, Nat.cast_ofNat]
    exact (zpow_natCast 2 52).symm
  rw [magnitudeValue, significand, if_neg hnormal, Nat.mul_mod_left, Nat.add_zero, hplace, dyadic_eq,
    hcount, ← zpow_add₀ two_ne_zero]
  congr 1
  omega

theorem magnitudeValue_nonneg (word : ℕ) : 0 ≤ magnitudeValue word := by
  rcases Nat.eq_zero_or_pos word with rfl | h
  · exact magnitudeValue_zero.ge
  · exact (magnitudeValue_pos h).le

/-! ## Positive doubles -/

/-- The word of a positive double is between those of zero and infinity. -/
theorem isPositive_iff_word {x : Float} :
    isPositive x = true ↔ 0 < x.toBits.toNat ∧ x.toBits.toNat < infinityWord := by
  rw [isPositive, Bool.and_eq_true, decide_eq_true_eq, decide_eq_true_eq]

/-- The word of a positive double has no sign. -/
theorem magnitudeWord_of_isPositive {x : Float} (h : isPositive x = true) :
    magnitudeWord x = x.toBits.toNat := by
  rw [isPositive_iff_word, infinityWord] at h
  rw [magnitudeWord, signPlace]
  omega

/-- The value of a positive double is the one of its word. -/
theorem toRat?_of_isPositive {x : Float} (h : isPositive x = true) :
    toRat? x = some (magnitudeValue x.toBits.toNat) := by
  have hword := magnitudeWord_of_isPositive h
  rw [isPositive_iff_word] at h
  have hfinite : isFinite x = true := by
    rw [isFinite, hword]
    exact decide_eq_true h.2
  have hsign : isNegative x = false := by
    rw [isNegative, decide_eq_false_iff_not, signPlace]
    rw [infinityWord] at h
    omega
  rw [toRat?, if_pos hfinite, hsign, hword]
  rfl

/-- A finite double with the sign bit has no positive value. -/
theorem toRat?_of_isNegative {x : Float} (h : isNegative x = true) {q : ℚ}
    (hq : toRat? x = some q) : q ≤ 0 := by
  rw [toRat?, h] at hq
  split at hq
  · cases hq
    exact neg_nonpos.mpr (magnitudeValue_nonneg _)
  · cases hq

/-- **Positive doubles** are the finite ones with a value above zero. -/
theorem isPositive_iff {x : Float} : isPositive x = true ↔ ∃ q, toRat? x = some q ∧ 0 < q := by
  constructor
  · intro h
    exact ⟨_, toRat?_of_isPositive h, magnitudeValue_pos (isPositive_iff_word.mp h).1⟩
  · rintro ⟨q, hq, hpos⟩
    have hsign : isNegative x = false := by
      rw [Bool.eq_false_iff]
      intro h
      exact absurd hpos (toRat?_of_isNegative h hq).not_gt
    have hword : magnitudeWord x = x.toBits.toNat := by
      rw [isNegative, decide_eq_false_iff_not] at hsign
      exact Nat.mod_eq_of_lt (by omega)
    rw [toRat?, hsign, hword] at hq
    split at hq
    · next hfinite =>
      cases hq
      rw [isFinite, decide_eq_true_eq, hword] at hfinite
      refine isPositive_iff_word.mpr ⟨Nat.pos_of_ne_zero ?_, hfinite⟩
      intro h
      rw [h] at hpos
      exact absurd hpos magnitudeValue_zero.not_gt
    · cases hq

theorem isPositive_ofWord {word : ℕ} (hpos : 0 < word) (hlt : word < infinityWord) :
    isPositive (ofWord word) = true := by
  rw [isPositive_iff_word, toNat_toBits_ofWord_of_lt hlt]
  exact ⟨hpos, hlt⟩

theorem toRat?_ofWord {word : ℕ} (hpos : 0 < word) (hlt : word < infinityWord) :
    toRat? (ofWord word) = some (magnitudeValue word) := by
  rw [toRat?_of_isPositive (isPositive_ofWord hpos hlt), toNat_toBits_ofWord_of_lt hlt]

theorem isPositive_one : isPositive (nearest 1) = true := by decide +kernel

/-! ## Rounding up -/

/-- **Rounding up ends in a power of two**, one between those of the least and the greatest exponent of
the normal doubles. -/
theorem ceilPowerOfTwo?_eq_some {x y : Float} (hx : isPositive x = true)
    (h : ceilPowerOfTwo? x = some y) :
    isPositive y = true ∧ ∃ k : ℤ, -1022 ≤ k ∧ k ≤ 1023 ∧ toRat? y = some (2 ^ k) := by
  have hword := magnitudeWord_of_isPositive hx
  obtain ⟨hpos, -⟩ := isPositive_iff_word.mp hx
  rw [ceilPowerOfTwo?, hword] at h
  -- The rounded word has an empty fraction and an exponent above zero.
  obtain ⟨e, he, hup⟩ : ∃ e, 0 < e ∧ (if x.toBits.toNat % fractionCount = 0 then x.toBits.toNat
      else (x.toBits.toNat / fractionCount + 1) * fractionCount) = e * fractionCount := by
    by_cases hfraction : x.toBits.toNat % fractionCount = 0
    · rw [if_pos hfraction]
      have hdvd := Nat.dvd_of_mod_eq_zero hfraction
      exact ⟨x.toBits.toNat / fractionCount, Nat.div_pos (Nat.le_of_dvd hpos hdvd) (by decide),
        (Nat.div_mul_cancel hdvd).symm⟩
    · rw [if_neg hfraction]
      exact ⟨_, Nat.succ_pos _, rfl⟩
  simp only [hup] at h
  obtain ⟨hlt, hy⟩ := Option.ite_none_right_eq_some.mp h
  have hword_pos : 0 < e * fractionCount := Nat.mul_pos he (by decide)
  have hbelow : e < 2047 := by
    rw [fractionCount, infinityWord] at hlt
    omega
  cases hy
  refine ⟨isPositive_ofWord hword_pos hlt, (e : ℤ) - 1023, by omega, by omega, ?_⟩
  rw [toRat?_ofWord hword_pos hlt, magnitudeValue_mul_fractionCount he]

end FiniteDifference.Binary64
