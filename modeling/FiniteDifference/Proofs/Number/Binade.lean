import FiniteDifference.Proofs.Number.Words

/-!
# Binades

The exponent of a word bounds its value by two consecutive powers of two.  So the least power of two that is
at least a positive double is read off its word: an empty fraction keeps the exponent, any other moves it up
by one.
-/

namespace FiniteDifference.Binary64

/-! ## Bounds of values -/

/-- There are as many fractions as the places of a significand below the leading one allow. -/
theorem natCast_fractionCount : (fractionCount : ℚ) = 2 ^ (52 : ℤ) := by
  rw [fractionCount]
  norm_num

/-- The value of a normal word, from its exponent and its fraction. -/
theorem magnitudeValue_of_normal {word : ℕ} (h : fractionCount ≤ word) :
    magnitudeValue word
      = (2 ^ (52 : ℤ) + (word % fractionCount : ℕ)) * 2 ^ ((word / fractionCount : ℕ) - 1075 : ℤ) := by
  have hmax : Nat.max 1 (word / fractionCount) = word / fractionCount :=
    Nat.max_eq_right (Nat.div_pos h (by decide))
  rw [magnitudeValue, significand, if_neg (Nat.not_lt.mpr h), lastPlace, hmax, dyadic_eq, Nat.cast_add,
    natCast_fractionCount]

/-- The value of a subnormal word is as many times the least one as the word tells. -/
theorem magnitudeValue_of_subnormal {word : ℕ} (h : word < fractionCount) :
    magnitudeValue word = word * 2 ^ (-1074 : ℤ) := by
  have hplace : lastPlace word = -1074 := by
    rw [lastPlace, Nat.div_eq_of_lt h]
    rfl
  rw [magnitudeValue, significand, if_pos h, hplace, dyadic_eq]

/-- The value of a word is below the power of two of the next exponent; the subnormal words come before the
least normal one. -/
theorem magnitudeValue_lt_next (word : ℕ) :
    magnitudeValue word < 2 ^ ((word / fractionCount : ℕ) - 1022 : ℤ) := by
  rcases Nat.lt_or_ge word fractionCount with hlow | hnormal
  · have hword : (word : ℚ) < 2 ^ (52 : ℤ) := natCast_fractionCount ▸ Nat.cast_lt.mpr hlow
    rw [magnitudeValue_of_subnormal hlow, Nat.div_eq_of_lt hlow]
    calc (word : ℚ) * 2 ^ (-1074 : ℤ) < 2 ^ (52 : ℤ) * 2 ^ (-1074 : ℤ) :=
          mul_lt_mul_of_pos_right hword (zpow_pos two_pos _)
      _ = 2 ^ ((0 : ℕ) - 1022 : ℤ) := by rw [← zpow_add₀ two_ne_zero]; rfl
  · have hfraction : ((word % fractionCount : ℕ) : ℚ) < 2 ^ (52 : ℤ) :=
      natCast_fractionCount ▸ Nat.cast_lt.mpr (Nat.mod_lt word (by decide))
    have hdouble : (2 : ℚ) ^ (53 : ℤ) = 2 ^ (52 : ℤ) + 2 ^ (52 : ℤ) := by norm_num
    rw [magnitudeValue_of_normal hnormal]
    calc (2 ^ (52 : ℤ) + (word % fractionCount : ℕ) : ℚ) * 2 ^ ((word / fractionCount : ℕ) - 1075 : ℤ)
        < 2 ^ (53 : ℤ) * 2 ^ ((word / fractionCount : ℕ) - 1075 : ℤ) := by
          refine mul_lt_mul_of_pos_right ?_ (zpow_pos two_pos _)
          rw [hdouble]
          exact add_lt_add_right hfraction _
      _ = 2 ^ ((word / fractionCount : ℕ) - 1022 : ℤ) := by
          rw [← zpow_add₀ two_ne_zero]
          congr 1
          omega

/-- The value of a normal word with a fraction is above the power of two of its exponent. -/
theorem two_zpow_lt_magnitudeValue {word : ℕ} (hnormal : fractionCount ≤ word)
    (hfraction : word % fractionCount ≠ 0) :
    2 ^ ((word / fractionCount : ℕ) - 1023 : ℤ) < magnitudeValue word := by
  have hpos : (0 : ℚ) < (word % fractionCount : ℕ) := Nat.cast_pos.mpr (Nat.pos_of_ne_zero hfraction)
  rw [magnitudeValue_of_normal hnormal]
  calc (2 : ℚ) ^ ((word / fractionCount : ℕ) - 1023 : ℤ)
      = 2 ^ (52 : ℤ) * 2 ^ ((word / fractionCount : ℕ) - 1075 : ℤ) := by
        rw [← zpow_add₀ two_ne_zero]
        congr 1
        omega
    _ < _ := mul_lt_mul_of_pos_right (lt_add_of_pos_right _ hpos) (zpow_pos two_pos _)

/-! ## The exponent of rounding up -/

/-- The exponent part of the word that a word is rounded up to. -/
def ceilExponent (word : ℕ) : ℕ :=
  if word % fractionCount = 0 then word / fractionCount else word / fractionCount + 1

/-- The word that a word is rounded up to has an empty fraction. -/
theorem ceilExponent_mul_fractionCount (word : ℕ) :
    (if word % fractionCount = 0 then word else (word / fractionCount + 1) * fractionCount)
      = ceilExponent word * fractionCount := by
  rw [ceilExponent]
  split
  · next hfraction => exact (Nat.div_mul_cancel (Nat.dvd_of_mod_eq_zero hfraction)).symm
  · rfl

/-- Rounding up ends in a normal word. -/
theorem ceilExponent_pos {word : ℕ} (h : 0 < word) : 0 < ceilExponent word := by
  rw [ceilExponent]
  split
  · next hfraction =>
    exact Nat.div_pos (Nat.le_of_dvd h (Nat.dvd_of_mod_eq_zero hfraction)) (by decide)
  · exact Nat.succ_pos _

/-- A word with an empty fraction is rounded up to itself. -/
theorem ceilExponent_mul (e : ℕ) : ceilExponent (e * fractionCount) = e := by
  rw [ceilExponent, if_pos (Nat.mul_mod_left e _), Nat.mul_div_cancel _ (by decide)]

/-- The value of a word is at most the power of two that it is rounded up to. -/
theorem magnitudeValue_le_ceil {word : ℕ} (h : 0 < word) :
    magnitudeValue word ≤ 2 ^ ((ceilExponent word : ℤ) - 1023) := by
  by_cases hfraction : word % fractionCount = 0
  · have hword := ceilExponent_mul_fractionCount word
    rw [if_pos hfraction] at hword
    conv_lhs => rw [hword, magnitudeValue_mul_fractionCount (ceilExponent_pos h)]
  · refine (magnitudeValue_lt_next word).le.trans_eq ?_
    rw [ceilExponent, if_neg hfraction]
    congr 1
    omega

/-- Above the least normal exponent, the power of two of one exponent less is too small. -/
theorem two_zpow_lt_of_one_lt_ceilExponent {word : ℕ} (h : 1 < ceilExponent word) :
    2 ^ ((ceilExponent word : ℤ) - 1024) < magnitudeValue word := by
  by_cases hfraction : word % fractionCount = 0
  · have hword := ceilExponent_mul_fractionCount word
    rw [if_pos hfraction] at hword
    conv_rhs => rw [hword, magnitudeValue_mul_fractionCount (Nat.zero_lt_of_lt h)]
    exact zpow_lt_zpow_right₀ one_lt_two (by omega)
  · rw [ceilExponent, if_neg hfraction] at h ⊢
    have hnormal : fractionCount ≤ word := by
      by_contra hlow
      rw [Nat.div_eq_of_lt (Nat.not_le.mp hlow)] at h
      omega
    refine lt_of_eq_of_lt ?_ (two_zpow_lt_magnitudeValue hnormal hfraction)
    congr 1
    omega

/-- **Powers of two above a word.** Among the exponents of the normal doubles, those whose power of two is at
least the value of a word are the ones from the exponent of rounding up on. -/
theorem magnitudeValue_le_two_zpow_iff {word : ℕ} (hpos : 0 < word) {k : ℤ} (hk : -1022 ≤ k) :
    magnitudeValue word ≤ 2 ^ k ↔ (ceilExponent word : ℤ) - 1023 ≤ k := by
  constructor
  · intro hvalue
    by_contra hlow
    have hbelow : 2 ^ ((ceilExponent word : ℤ) - 1024) < (2 : ℚ) ^ k :=
      (two_zpow_lt_of_one_lt_ceilExponent (by omega)).trans_le hvalue
    have := (zpow_lt_zpow_iff_right₀ one_lt_two).mp hbelow
    omega
  · intro hle
    exact (magnitudeValue_le_ceil hpos).trans (zpow_le_zpow_right₀ one_le_two hle)

/-- **Rounding up a positive double**, by the exponent of its word. -/
theorem ceilPowerOfTwo?_eq {x : Float} (hx : isPositive x = true) :
    ceilPowerOfTwo? x =
      if ceilExponent x.toBits.toNat < 2047 then some (ofWord (ceilExponent x.toBits.toNat * fractionCount))
      else none := by
  have hbound : ceilExponent x.toBits.toNat * fractionCount < infinityWord
      ↔ ceilExponent x.toBits.toNat < 2047 := by
    rw [fractionCount, infinityWord]
    omega
  rw [ceilPowerOfTwo?, magnitudeWord_of_isPositive hx]
  simp only [ceilExponent_mul_fractionCount, hbound]

end FiniteDifference.Binary64
