import FiniteDifference.Proofs.Number.Binade
import FiniteDifference.Scalar.Binary64

/-!
# The range of the doubles

A rational number rounds to a finite double if its magnitude lies below the midpoint between the greatest
finite double and the next power of two; at the midpoint itself the tie goes to the even neighbour, which is
infinity.
-/

namespace FiniteDifference.Binary64

/-! ## Quotients in binary places -/

theorem natCast_shiftLeft (n k : ℕ) : ((n <<< k : ℕ) : ℚ) = n * 2 ^ k := by
  rw [Nat.shiftLeft_eq, Nat.cast_mul, Nat.cast_pow, Nat.cast_ofNat]

/-- A dividend that is shifted by a negative exponent. -/
theorem natCast_shiftLeft_neg (n : ℕ) (k : ℤ) :
    ((n <<< (-k).toNat : ℕ) : ℚ) = n * 2 ^ (-k) * 2 ^ k.toNat := by
  have hscale : (2 : ℚ) ^ (-k).toNat = 2 ^ (-k) * 2 ^ k.toNat := by
    rw [← zpow_natCast, ← zpow_natCast, ← zpow_add₀ two_ne_zero]
    congr 1
    omega
  rw [natCast_shiftLeft, hscale, mul_assoc]

theorem shiftLeft_neg_lt_iff (n d m : ℕ) (k : ℤ) :
    n <<< (-k).toNat < m * d <<< k.toNat ↔ (n : ℚ) < m * d * 2 ^ k := by
  have hk : (0 : ℚ) < 2 ^ k.toNat := by positivity
  rw [← Nat.cast_lt (α := ℚ), natCast_shiftLeft_neg, Nat.cast_mul, natCast_shiftLeft, ← mul_assoc,
    mul_lt_mul_iff_left₀ hk, zpow_neg, ← div_eq_mul_inv, div_lt_iff₀ (zpow_pos two_pos k)]

theorem quotientBelow_iff (n d : ℕ) (k : ℤ) :
    quotientBelow n d k = true ↔ (n : ℚ) < d * 2 ^ k := by
  have hcompare := shiftLeft_neg_lt_iff n d 1 k
  rw [Nat.one_mul, Nat.cast_one, one_mul] at hcompare
  rw [quotientBelow, decide_eq_true_eq, hcompare]

/-- A positive number between two powers of two. -/
theorem log2_bounds {n : ℕ} (hn : n ≠ 0) :
    (2 : ℚ) ^ (Nat.log2 n : ℤ) ≤ n ∧ (n : ℚ) < 2 ^ ((Nat.log2 n : ℤ) + 1) := by
  constructor
  · rw [zpow_natCast]
    exact_mod_cast Nat.log2_self_le hn
  · have hcast : (Nat.log2 n : ℤ) + 1 = ((Nat.log2 n + 1 : ℕ) : ℤ) := rfl
    rw [hcast, zpow_natCast]
    exact_mod_cast Nat.lt_log2_self

/-- The exponent of the last of 53 binary places of a quotient. -/
theorem exists_lastPlaceOfQuotient_eq {n d : ℕ} (hn : n ≠ 0) (hd : d ≠ 0) :
    ∃ place : ℤ, lastPlaceOfQuotient n d = max place (-1074) ∧
      (d : ℚ) * 2 ^ (place + 52) ≤ n ∧ (n : ℚ) < d * 2 ^ (place + 53) := by
  obtain ⟨hnlow, hnhigh⟩ := log2_bounds hn
  obtain ⟨hdlow, hdhigh⟩ := log2_bounds hd
  have hexponent : (Nat.log2 n : ℤ) - Nat.log2 d - 52 + 52 = Nat.log2 n - Nat.log2 d := by omega
  have hlast : lastPlaceOfQuotient n d = max (if quotientBelow n d (Nat.log2 n - Nat.log2 d) = true
      then (Nat.log2 n : ℤ) - Nat.log2 d - 52 - 1 else (Nat.log2 n : ℤ) - Nat.log2 d - 52) (-1074) := by
    rw [lastPlaceOfQuotient, hexponent]
  refine ⟨_, hlast, ?_⟩
  split
  · next hbelow =>
    have hsum : (Nat.log2 d : ℤ) + 1 + (Nat.log2 n - Nat.log2 d - 1) = Nat.log2 n := by omega
    constructor
    · calc (d : ℚ) * 2 ^ ((Nat.log2 n : ℤ) - Nat.log2 d - 52 - 1 + 52)
          = d * 2 ^ ((Nat.log2 n : ℤ) - Nat.log2 d - 1) := by congr 2; omega
        _ ≤ 2 ^ ((Nat.log2 d : ℤ) + 1) * 2 ^ ((Nat.log2 n : ℤ) - Nat.log2 d - 1) :=
            mul_le_mul_of_nonneg_right hdhigh.le (zpow_pos two_pos _).le
        _ = 2 ^ (Nat.log2 n : ℤ) := by rw [← zpow_add₀ two_ne_zero, hsum]
        _ ≤ n := hnlow
    · refine ((quotientBelow_iff n d _).mp hbelow).trans_eq ?_
      congr 2
      omega
  · next hbelow =>
    have hsum : (Nat.log2 d : ℤ) + (Nat.log2 n - Nat.log2 d + 1) = Nat.log2 n + 1 := by omega
    constructor
    · rw [hexponent]
      exact not_lt.mp (mt (quotientBelow_iff n d _).mpr hbelow)
    · calc (n : ℚ) < 2 ^ ((Nat.log2 n : ℤ) + 1) := hnhigh
        _ = 2 ^ (Nat.log2 d : ℤ) * 2 ^ ((Nat.log2 n : ℤ) - Nat.log2 d + 1) := by
            rw [← zpow_add₀ two_ne_zero, hsum]
        _ ≤ d * 2 ^ ((Nat.log2 n : ℤ) - Nat.log2 d + 1) :=
            mul_le_mul_of_nonneg_right hdlow (zpow_pos two_pos _).le
        _ = d * 2 ^ ((Nat.log2 n : ℤ) - Nat.log2 d - 52 + 53) := by congr 2; omega

/-- **Last places.** A quotient is below the power of two of 53 binary places from its last place on, and
at least the one of 52 places unless the last place is the least one. -/
theorem lastPlaceOfQuotient_bounds {n d : ℕ} (hn : n ≠ 0) (hd : d ≠ 0) :
    (n : ℚ) < d * 2 ^ (lastPlaceOfQuotient n d + 53) ∧
      (-1074 < lastPlaceOfQuotient n d → (d : ℚ) * 2 ^ (lastPlaceOfQuotient n d + 52) ≤ n) := by
  obtain ⟨place, hlast, hlow, hhigh⟩ := exists_lastPlaceOfQuotient_eq hn hd
  rw [hlast]
  constructor
  · refine hhigh.trans_le (mul_le_mul_of_nonneg_left ?_ (Nat.cast_nonneg d))
    exact zpow_le_zpow_right₀ one_le_two (by omega)
  · intro hnormal
    have hmax : max place (-1074) = place := by omega
    rwa [hmax]

/-! ## Rounding quotients -/

/-- Rounding a quotient gives its floor or the number after it. -/
theorem divNearestEven_bounds (n d : ℕ) : n / d ≤ divNearestEven n d ∧ divNearestEven n d ≤ n / d + 1 := by
  rw [divNearestEven]
  split
  · omega
  · split
    · omega
    · split <;> omega

/-- **Rounding below an even number.** A quotient rounds below the even number after an odd one if it lies
below the midpoint of the two. -/
theorem divNearestEven_lt_succ_iff {n d t : ℕ} (hd : 0 < d) (hodd : t % 2 = 1) :
    divNearestEven n d < t + 1 ↔ 2 * n < 2 * (t * d) + d := by
  obtain ⟨hlow, hhigh⟩ := divNearestEven_bounds n d
  have hdiv : n = n / d * d + n % d := by rw [Nat.mul_comm, Nat.div_add_mod]
  have hmod := Nat.mod_lt n hd
  rcases lt_trichotomy (n / d) t with hlt | heq | hgt
  · have hnext : (n / d + 1) * d ≤ t * d := Nat.mul_le_mul_right d hlt
    rw [Nat.add_mul, Nat.one_mul] at hnext
    omega
  · -- the floor is odd, so the midpoint goes up
    rw [divNearestEven, heq]
    rw [heq] at hdiv
    split
    · omega
    · split
      · omega
      · rw [if_neg (by omega)]
        omega
  · have hnext : (t + 1) * d ≤ n / d * d := Nat.mul_le_mul_right d hgt
    rw [Nat.add_mul, Nat.one_mul] at hnext
    omega

/-! ## Finite doubles -/

/-- **Significands.** A quotient has at most 53 binary places from its last place on, and at least as many
unless the last place is the least one. -/
theorem significand_bounds {n d : ℕ} (hn : n ≠ 0) (hd : d ≠ 0) {p : ℤ}
    (hp : lastPlaceOfQuotient n d = p) :
    divNearestEven (n <<< (-p).toNat) (d <<< p.toNat) ≤ 2 ^ 53 ∧
      (-1074 < p → 2 ^ 52 ≤ divNearestEven (n <<< (-p).toNat) (d <<< p.toNat)) := by
  obtain ⟨hhigh, hlow⟩ := lastPlaceOfQuotient_bounds hn hd
  rw [hp] at hhigh hlow
  have hshift : 0 < d <<< p.toNat := by
    rw [Nat.shiftLeft_eq]
    positivity
  obtain ⟨hfloor, hceil⟩ := divNearestEven_bounds (n <<< (-p).toNat) (d <<< p.toNat)
  constructor
  · have hbelow : n <<< (-p).toNat < 2 ^ 53 * d <<< p.toNat := by
      rw [shiftLeft_neg_lt_iff]
      refine hhigh.trans_eq ?_
      rw [zpow_add₀ two_ne_zero]
      norm_num
      ring
    have hdiv := (Nat.div_lt_iff_lt_mul hshift).mpr hbelow
    omega
  · intro hnormal
    have habove : ¬n <<< (-p).toNat < 2 ^ 52 * d <<< p.toNat := by
      rw [shiftLeft_neg_lt_iff, not_lt]
      refine (le_of_eq ?_).trans (hlow hnormal)
      rw [zpow_add₀ two_ne_zero]
      norm_num
      ring
    have hdiv := (Nat.le_div_iff_mul_le hshift).mpr (not_lt.mp habove)
    omega

/-- **The range of the doubles.** The midpoint between the greatest finite double and the next power of
two. -/
def rangeBound : ℚ := 2 ^ 1024 - 2 ^ 970

/-- The bound of the range in units of half the last place of the greatest finite double. -/
theorem rangeBound_eq : rangeBound = (2 ^ 54 - 1) * 2 ^ (970 : ℤ) := by
  rw [rangeBound, show (1024 : ℕ) = 54 + 970 from rfl, pow_add, sub_mul, one_mul]
  rfl

theorem rangeBound_bounds : (2 : ℚ) ^ (1023 : ℤ) < rangeBound ∧ rangeBound < 2 ^ (1024 : ℤ) := by
  have hunit : (0 : ℚ) < 2 ^ (970 : ℤ) := zpow_pos two_pos _
  rw [rangeBound_eq, show (1023 : ℤ) = 53 + 970 from rfl, show (1024 : ℤ) = 54 + 970 from rfl,
    zpow_add₀ two_ne_zero, zpow_add₀ two_ne_zero]
  exact ⟨mul_lt_mul_of_pos_right (by norm_num) hunit, mul_lt_mul_of_pos_right (by norm_num) hunit⟩

/-- With the greatest last place, the significand does not carry below the bound of the range. -/
theorem significand_lt_iff (n : ℕ) {d : ℕ} (hd : d ≠ 0) :
    divNearestEven n (d <<< 971) < 2 ^ 53 ↔ (n : ℚ) < d * rangeBound := by
  have hshift : 0 < d <<< 971 := by
    rw [Nat.shiftLeft_eq]
    positivity
  have hunit : ((d <<< 971 : ℕ) : ℚ) = d * (2 * 2 ^ (970 : ℤ)) := by
    have hpow : (2 : ℚ) ^ 971 = 2 * 2 ^ 970 := pow_succ' 2 970
    rw [natCast_shiftLeft, hpow]
    rfl
  rw [rangeBound_eq]
  generalize d <<< 971 = divisor at *
  generalize (2 : ℚ) ^ (970 : ℤ) = unit at *
  have hround : divNearestEven n divisor < 2 ^ 53 - 1 + 1 ↔ _ :=
    divNearestEven_lt_succ_iff hshift (by norm_num)
  rw [show 2 ^ 53 = 2 ^ 53 - 1 + 1 from rfl, hround, ← Nat.cast_lt (α := ℚ)]
  push_cast
  rw [hunit]
  constructor
  · intro h
    linarith
  · intro h
    linarith

/-- **Overflow of words.** A quotient has the word of a finite double if it lies in the range. -/
theorem nearestMagnitude_lt_iff (n : ℕ) {d : ℕ} (hd : d ≠ 0) :
    nearestMagnitude n d < infinityWord ↔ (n : ℚ) < d * rangeBound := by
  have hdpos : (0 : ℚ) < d := by positivity
  obtain ⟨hbelow, habove⟩ := rangeBound_bounds
  by_cases hn : n = 0
  · rw [hn, nearestMagnitude, if_pos rfl, Nat.cast_zero]
    exact iff_of_true (by decide) (mul_pos hdpos ((zpow_pos two_pos _).trans hbelow))
  obtain ⟨hhigh, hlow⟩ := lastPlaceOfQuotient_bounds hn hd
  obtain ⟨hmost, hleast⟩ := significand_bounds hn hd rfl
  rw [nearestMagnitude, if_neg hn]
  dsimp only
  generalize hp : lastPlaceOfQuotient n d = p at *
  have hword : ∀ m : ℕ, Nat.min infinityWord ((p + 1074).toNat * fractionCount + m) < infinityWord
      ↔ (p + 1074).toNat * fractionCount + m < infinityWord := fun m =>
    min_lt_iff.trans (or_iff_right (lt_irrefl _))
  rw [hword, infinityWord, fractionCount]
  rcases lt_trichotomy p 971 with hlt | rfl | hgt
  · refine iff_of_true (by omega) ?_
    calc (n : ℚ) < d * 2 ^ (p + 53) := hhigh
      _ ≤ d * 2 ^ (1023 : ℤ) :=
          mul_le_mul_of_nonneg_left (zpow_le_zpow_right₀ one_le_two (by omega)) hdpos.le
      _ < d * rangeBound := mul_lt_mul_of_pos_left hbelow hdpos
  · rw [← significand_lt_iff n hd]
    show _ + divNearestEven n (d <<< 971) < _ ↔ _
    omega
  · refine iff_of_false ?_ ?_
    · have := hleast (by omega)
      omega
    · rw [not_lt]
      calc (d : ℚ) * rangeBound ≤ d * 2 ^ (1024 : ℤ) := mul_le_mul_of_nonneg_left habove.le hdpos.le
        _ ≤ d * 2 ^ (p + 52) :=
            mul_le_mul_of_nonneg_left (zpow_le_zpow_right₀ one_le_two (by omega)) hdpos.le
        _ ≤ n := hlow (by omega)

/-- Doubles of either sign are finite up to the word of infinity. -/
theorem isFinite_ofSignedWord (negative : Bool) {word : ℕ} (h : word ≤ infinityWord) :
    isFinite (ofSignedWord negative word) = true ↔ word < infinityWord := by
  rcases h.eq_or_lt with rfl | hlt
  · refine iff_of_false ?_ (lt_irrefl _)
    cases negative <;> decide +kernel
  · refine iff_of_true ?_ hlt
    have hsign : (if negative = true then signPlace + word else word) % signPlace = word := by
      rw [infinityWord] at hlt
      rw [signPlace]
      split <;> omega
    have hbound : (if negative = true then signPlace + word else word) < 2 ^ 64 := by
      rw [infinityWord] at hlt
      rw [signPlace]
      split <;> omega
    rw [isFinite, magnitudeWord, ofSignedWord, toNat_toBits_ofWord hbound (by rwa [hsign]), hsign]
    exact decide_eq_true hlt

/-- **The range of the doubles.** A rational number rounds to a finite double if its magnitude lies below the
bound of the range. -/
theorem fits_iff (q : ℚ) : Scalar.fits (α := Float) q = true ↔ |q| < rangeBound := by
  have hword : nearestMagnitude q.num.natAbs q.den ≤ infinityWord := by
    rw [nearestMagnitude]
    split
    · exact Nat.zero_le _
    · exact min_le_left _ _
  have hden : (0 : ℚ) < q.den := by exact_mod_cast q.den_pos
  have hmagnitude : |q| = q.num.natAbs / q.den := by
    rw [Nat.cast_natAbs, Int.cast_abs]
    conv_lhs => rw [← q.num_div_den, abs_div, abs_of_pos hden]
  show isFinite (ofSignedWord (q.num < 0) (nearestMagnitude q.num.natAbs q.den)) = true ↔ _
  rw [isFinite_ofSignedWord _ hword, nearestMagnitude_lt_iff _ q.den_nz, hmagnitude, div_lt_iff₀ hden,
    mul_comm]

/-- **Whole numbers.** Those of at most 63 binary places lie in the range. -/
theorem fits_natCast {n : ℕ} (h : n < 2 ^ 63) : Scalar.fits (α := Float) (n : ℚ) = true := by
  have hn : (n : ℚ) < 2 ^ 63 := by exact_mod_cast h
  have hplaces : (2 : ℚ) ^ (63 : ℤ) ≤ 2 ^ (1023 : ℤ) := zpow_le_zpow_right₀ one_le_two (by norm_num)
  rw [fits_iff, Nat.abs_cast]
  exact hn.trans (hplaces.trans_lt rangeBound_bounds.1)

end FiniteDifference.Binary64
