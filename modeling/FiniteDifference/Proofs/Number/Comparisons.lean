import FiniteDifference.Proofs.Number.Binade
import FiniteDifference.Scalar.Binary64

/-!
# Comparisons of doubles

Doubles are compared by what their words stand for: a sign, a significand and the exponent of the last place.
The words tell which doubles equal zero, which are above one, and which is the missing number, the only one
that does not equal itself.
-/

namespace FiniteDifference.Binary64

open Float.Model

/-! ## Zeros -/

/-- What equals a zero is a zero, of either sign. -/
theorem beq_zero_iff (u : UnpackedFloat) (sign : UnpackedFloat.Sign) :
    u.beq (.zero sign) = true ↔ ∃ s, u = .zero s := by
  cases u with
  | infinity s => cases s <;> simp [UnpackedFloat.beq, UnpackedFloat.compare]
  | notANumber => simp [UnpackedFloat.beq, UnpackedFloat.compare]
  | zero s => simp [UnpackedFloat.beq, UnpackedFloat.compare]
  | finite s m e hm => cases s <;> simp [UnpackedFloat.beq, UnpackedFloat.compare]

/-- The words of the zeros have neither exponent nor fraction. -/
theorem unpack_eq_zero_iff (b : BitVec Format.binary64.numBits) :
    (∃ s, UnpackedFloat.unpack .binary64 b = .zero s) ↔ b.toNat % 2 ^ 63 = 0 := by
  have hexponent := toNat_unpackExponent b
  have hfraction := toNat_unpackMantissa b
  rw [UnpackedFloat.unpack]
  split
  · next h =>
    -- infinities and missing numbers
    rw [h] at hexponent
    change 2047 = _ at hexponent
    split <;> simp <;> omega
  · split
    · next h =>
      rw [h] at hexponent
      change 0 = _ at hexponent
      split
      · next h =>
        rw [h] at hfraction
        change 0 = _ at hfraction
        simp
        omega
      · next h =>
        have hne : (UnpackedFloat.unpackMantissa b).toNat ≠ 0 := fun hnat =>
          h (BitVec.eq_of_toNat_eq hnat)
        simp
        omega
    · next h =>
      have hne : (UnpackedFloat.unpackExponent b).toNat ≠ 0 := fun hnat =>
        h (BitVec.eq_of_toNat_eq hnat)
      simp
      omega

/-- **Zeros.** A double is zero exactly if its word without the sign is. -/
theorem isZero_iff {x : Float} : Scalar.isZero x = true ↔ magnitudeWord x = 0 := by
  have hzero : (Scalar.zero : Float).toModel.unpack = .zero .positive := rfl
  show x.toModel.unpack.beq (Scalar.zero : Float).toModel.unpack = true ↔ _
  rw [hzero, beq_zero_iff]
  exact unpack_eq_zero_iff _

theorem isZero_eq_false {x : Float} (hx : isPositive x = true) : Scalar.isZero x = false := by
  rw [← Bool.not_eq_true, isZero_iff, magnitudeWord_of_isPositive hx]
  exact (isPositive_iff_word.mp hx).1.ne'

theorem isFinite_of_isPositive {x : Float} (hx : isPositive x = true) : isFinite x = true := by
  rw [isFinite, magnitudeWord_of_isPositive hx]
  exact decide_eq_true (isPositive_iff_word.mp hx).2

/-! ## Doubles above one -/

/-- The words without a sign bit. -/
theorem ofBitVec_unpackSign_eq_positive {b : BitVec Format.binary64.numBits} (h : b.toNat < signPlace) :
    UnpackedFloat.Sign.ofBitVec (UnpackedFloat.unpackSign b) = .positive := by
  have hsign : UnpackedFloat.unpackSign b = 0#1 := by
    refine BitVec.eq_of_toNat_eq ?_
    rw [UnpackedFloat.unpackSign_def, BitVec.extractLsb'_toNat, Nat.shiftRight_eq_div_pow]
    show b.toNat / 2 ^ 63 % 2 ^ 1 = 0
    rw [signPlace] at h
    omega
  rw [hsign]
  rfl

/-- The last place of a word, as a number. -/
theorem lastPlace_eq_max (word : ℕ) : lastPlace word = max 1 (word / fractionCount : ℕ) - 1075 := by
  rw [lastPlace]

/-- **Positive doubles** are their significand times two to the exponent of the last place. -/
theorem unpack_of_positive {b : BitVec Format.binary64.numBits} (hpos : 0 < b.toNat)
    (hlt : b.toNat < infinityWord) :
    UnpackedFloat.unpack .binary64 b
      = .finite .positive (significand b.toNat) (lastPlace b.toNat) (significand_pos hpos) := by
  have hexponent := toNat_unpackExponent b
  have hfraction := toNat_unpackMantissa b
  have hsign := ofBitVec_unpackSign_eq_positive (hlt.trans (by decide))
  have hplace := lastPlace_eq_max b.toNat
  rw [infinityWord] at hlt
  rw [fractionCount] at hplace
  have hfinite : UnpackedFloat.unpackExponent b ≠ -1#11 := fun h => by
    rw [h] at hexponent
    change 2047 = _ at hexponent
    omega
  dsimp only [UnpackedFloat.unpack]
  rw [hsign]
  refine (if_neg hfinite).trans ?_
  split
  · next h =>
    rw [h] at hexponent
    change 0 = _ at hexponent
    have hne : UnpackedFloat.unpackMantissa b ≠ 0#52 := fun h => by
      rw [h] at hfraction
      change 0 = _ at hfraction
      omega
    refine (dif_neg hne).trans ?_
    congr 1
    · rw [hfraction, significand, fractionCount, if_pos (by omega)]
      omega
    · rw [hplace, h]
      show (0 : ℤ) - (1023 + 52) + 1 = _
      omega
  · next h =>
    have hne : (UnpackedFloat.unpackExponent b).toNat ≠ 0 := fun hnat => h (BitVec.eq_of_toNat_eq hnat)
    congr 1
    · rw [BitVec.toNat_append, hfraction, ← Nat.shiftLeft_add_eq_or_of_lt (Nat.mod_lt _ (by decide)),
        significand, fractionCount, if_neg (by omega)]
      rfl
    · rw [hplace]
      show ((UnpackedFloat.unpackExponent b).toNat : ℤ) - (1023 + 52) = _
      omega

/-- One compared with positive numbers. -/
theorem one_lt_finite_iff (m : ℕ) (e : ℤ) (hm : 0 < m) :
    (UnpackedFloat.finite .positive (2 ^ 52) (-52) (by decide)).lt (.finite .positive m e hm) = true ↔
      -52 < e ∨ (e = -52 ∧ 2 ^ 52 < m) := by
  show (some ((compare (-52) e).then (compare (2 ^ 52) m)) == some Ordering.lt) = true ↔ _
  rw [beq_iff_eq, Option.some.injEq, Ordering.then_eq_lt, compare_lt_iff_lt, compare_lt_iff_lt,
    compare_eq_iff_eq, eq_comm (b := e)]

/-- **Doubles above one.** -/
theorem one_lt_iff {x : Float} (hx : isPositive x = true) {q : ℚ} (hq : toRat? x = some q) :
    Scalar.lt Scalar.one x = true ↔ 1 < q := by
  obtain ⟨hpos, hlt⟩ := isPositive_iff_word.mp hx
  rw [toRat?_of_isPositive hx, Option.some.injEq] at hq
  have hone : (Scalar.one : Float).toModel.unpack = .finite .positive (2 ^ 52) (-52) (by decide) := rfl
  have hunpack : x.toModel.unpack = .finite .positive (significand x.toBits.toNat)
      (lastPlace x.toBits.toNat) (significand_pos hpos) := unpack_of_positive hpos hlt
  have hcompare : Scalar.lt Scalar.one x = (Scalar.one : Float).toModel.unpack.lt x.toModel.unpack := by
    show decide (decide (UnpackedFloat.lt _ _ = true) = true) = _
    rw [Bool.decide_eq_true, Bool.decide_eq_true]
  have hvalue : 1 < q ↔ 1023 < ceilExponent x.toBits.toNat := by
    rw [← hq, ← not_le, ← zpow_zero (2 : ℚ), magnitudeValue_le_two_zpow_iff hpos (by decide)]
    omega
  rw [hcompare, hone, hunpack, one_lt_finite_iff, hvalue, lastPlace_eq_max, significand, ceilExponent,
    fractionCount]
  split_ifs <;> omega

/-! ## Doubles that are not finite -/

/-- What does not equal itself is the missing number. -/
theorem beq_self_eq_false_iff (u : UnpackedFloat) : u.beq u = false ↔ u = .notANumber := by
  cases u with
  | infinity s => exact iff_of_false (by cases s <;> decide) nofun
  | notANumber => simp [UnpackedFloat.beq, UnpackedFloat.compare]
  | zero s => simp [UnpackedFloat.beq, UnpackedFloat.compare]
  | finite s m e hm => cases s <;> simp [UnpackedFloat.beq, UnpackedFloat.compare]

/-- The words of the missing number are above the one of infinity. -/
theorem unpack_eq_notANumber_iff (b : BitVec Format.binary64.numBits) :
    UnpackedFloat.unpack .binary64 b = .notANumber ↔ infinityWord < b.toNat % signPlace := by
  have hexponent := toNat_unpackExponent b
  have hfraction := toNat_unpackMantissa b
  rw [infinityWord, signPlace, UnpackedFloat.unpack]
  split
  · next h =>
    rw [h] at hexponent
    change 2047 = _ at hexponent
    split
    · next h =>
      rw [h] at hfraction
      change 0 = _ at hfraction
      simp
      omega
    · next h =>
      have hne : (UnpackedFloat.unpackMantissa b).toNat ≠ 0 := fun hnat =>
        h (BitVec.eq_of_toNat_eq hnat)
      simp
      omega
  · next h =>
    have hne : (UnpackedFloat.unpackExponent b).toNat ≠ 2047 := fun hnat =>
      h (BitVec.eq_of_toNat_eq hnat)
    split
    · split <;> simp <;> omega
    · simp
      omega

/-- **Missing numbers.** A double is missing if its word without the sign is above the one of infinity. -/
theorem isMissing_iff {x : Float} : Scalar.isMissing x = true ↔ infinityWord < magnitudeWord x := by
  show (!x.toModel.unpack.beq x.toModel.unpack) = true ↔ _
  rw [Bool.not_eq_true', beq_self_eq_false_iff]
  exact unpack_eq_notANumber_iff _

/-- Doubles without a value are infinite or missing. -/
theorem toRat?_eq_none_iff {x : Float} : toRat? x = none ↔ infinityWord ≤ magnitudeWord x := by
  rw [toRat?, isFinite]
  split
  · next h => simpa using h
  · next h => simpa using h

end FiniteDifference.Binary64
