import FiniteDifference.Proofs.Number.Comparisons

/-!
# Powers of two as doubles

A double that is a power of two has exact powers, as long as their exponents lie between the one of the
least subnormal double and the one of the greatest binade.  Below this range the powers are zero, and above
it they are infinite.
-/

namespace FiniteDifference.Binary64

/-! ## Doubles that are powers of two -/

/-- **Powers of two within the range.** They are positive doubles of this value. -/
theorem powerOfTwo_of_mem {k : ℤ} (hlow : -1074 ≤ k) (hhigh : k ≤ 1023) :
    isPositive (powerOfTwo k) = true ∧ toRat? (powerOfTwo k) = some (2 ^ k) := by
  obtain ⟨word, heq, hpos, hlt, hvalue⟩ : ∃ word, powerOfTwo k = ofWord word ∧ 0 < word ∧
      word < infinityWord ∧ magnitudeValue word = 2 ^ k := by
    rw [powerOfTwo, if_neg (by omega)]
    by_cases hnormal : -1022 ≤ k
    · have hexponent : 0 < (k + 1023).toNat := by omega
      refine ⟨_, if_pos hnormal, Nat.mul_pos hexponent (by decide), ?_, ?_⟩
      · rw [fractionCount, infinityWord]
        omega
      · rw [magnitudeValue_mul_fractionCount hexponent]
        congr 1
        omega
    · -- the subnormal powers are shifts of the least word
      have hword : 1 <<< (k + 1074).toNat = 2 ^ (k + 1074).toNat := Nat.one_shiftLeft _
      have hbound : 2 ^ (k + 1074).toNat < fractionCount :=
        (Nat.pow_lt_pow_iff_right (by decide)).mpr (by omega : (k + 1074).toNat < 52)
      refine ⟨2 ^ (k + 1074).toNat, ?_, Nat.two_pow_pos _, hbound.trans (by decide), ?_⟩
      · rw [if_neg hnormal, if_pos hlow, hword]
      · have hcast : ((k + 1074).toNat : ℤ) = k + 1074 := Int.toNat_of_nonneg (by omega)
        rw [magnitudeValue_of_subnormal hbound, Nat.cast_pow, Nat.cast_ofNat, ← zpow_natCast, hcast,
          ← zpow_add₀ two_ne_zero]
        congr 1
        omega
  rw [heq]
  exact ⟨isPositive_ofWord hpos hlt, (toRat?_ofWord hpos hlt).trans (congrArg some hvalue)⟩

/-- **Underflow.** Powers of two below the range are zero. -/
theorem powerOfTwo_of_lt {k : ℤ} (h : k < -1074) : powerOfTwo k = ofWord 0 := by
  rw [powerOfTwo, if_neg (by omega), if_neg (by omega), if_neg (by omega)]

theorem isFinite_powerOfTwo_of_le {k : ℤ} (h : k ≤ 1023) : isFinite (powerOfTwo k) = true := by
  by_cases hlow : -1074 ≤ k
  · exact isFinite_of_isPositive (powerOfTwo_of_mem hlow h).1
  · rw [powerOfTwo_of_lt (by omega)]
    decide +kernel

/-- **Overflow.** Powers of two above the range are not finite. -/
theorem isFinite_powerOfTwo_of_lt {k : ℤ} (h : 1023 < k) : isFinite (powerOfTwo k) = false := by
  rw [powerOfTwo, if_pos (by omega)]
  decide +kernel

/-- A double whose value is a power of two is recognised as one. -/
theorem exponentOfTwo?_of_value {x : Float} {e : ℤ} (h : toRat? x = some (2 ^ e)) :
    exponentOfTwo? x = some e := by
  have hx : isPositive x = true := isPositive_iff.mpr ⟨_, h, zpow_pos two_pos e⟩
  have hword := magnitudeWord_of_isPositive hx
  rw [toRat?_of_isPositive hx] at h
  have hvalue : (significand x.toBits.toNat : ℚ) * 2 ^ lastPlace x.toBits.toNat = 2 ^ e := by
    rw [← dyadic_eq]
    exact Option.some.inj h
  have hm : (significand x.toBits.toNat : ℚ) = 2 ^ (e - lastPlace x.toBits.toNat) := by
    rw [zpow_sub₀ two_ne_zero, ← hvalue]
    field_simp
  -- a natural number that is a power of two has a natural exponent
  have hnonneg : 0 ≤ e - lastPlace x.toBits.toNat := by
    by_contra hneg
    have hone : (1 : ℚ) ≤ significand x.toBits.toNat :=
      Nat.one_le_cast.mpr (significand_pos (isPositive_iff_word.mp hx).1)
    rw [hm] at hone
    exact absurd hone (not_le.mpr (zpow_lt_one_of_neg₀ one_lt_two (by omega)))
  obtain ⟨j, hj⟩ := Int.eq_ofNat_of_zero_le hnonneg
  have hsignificand : significand x.toBits.toNat = 2 ^ j := by
    rw [hj, zpow_natCast] at hm
    exact_mod_cast hm
  rw [exponentOfTwo?, if_pos hx, hword]
  dsimp only
  rw [hsignificand, Nat.log2_two_pow, Nat.one_shiftLeft, if_pos rfl]
  congr 1
  omega

/-- **Powers of powers of two.** -/
theorem power_of_value {x : Float} {e : ℤ} (h : toRat? x = some (2 ^ e)) (k : ℕ) :
    power x k = powerOfTwo (e * k) := by
  rw [power, exponentOfTwo?_of_value h]

end FiniteDifference.Binary64
