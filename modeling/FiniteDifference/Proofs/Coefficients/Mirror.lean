import FiniteDifference.Proofs.Coefficients.Moments
import FiniteDifference.Proofs.Coefficients.Uniqueness
import FiniteDifference.Proofs.Stencil.Mirror

/-!
# Coefficients of mirror images

The coefficients of a stencil in reverse order have the moments of its mirror image up to signs, so by uniqueness
they are its coefficients, up to the sign of the order.
-/

namespace FiniteDifference

namespace Coefficients

/-! ## Moments of mirror images -/

/-- Opposite offsets change the sign of the moments at odd powers. -/
theorem moment_map_neg (offsets : List ℤ) (coefficients : List ℚ) (k : ℕ) :
    moment (offsets.map (- ·)) coefficients k = (-1) ^ k * moment offsets coefficients k := by
  induction offsets generalizing coefficients with
  | nil => exact (mul_zero _).symm
  | cons o offsets ih =>
    cases coefficients with
    | nil => exact (mul_zero _).symm
    | cons c coefficients =>
      rw [List.map_cons, moment, moment, ih, Int.cast_neg, neg_pow]
      ring

theorem moment_reverse {offsets : List ℤ} {coefficients : List ℚ}
    (h : offsets.length = coefficients.length) (k : ℕ) :
    moment offsets.reverse coefficients.reverse k = moment offsets coefficients k := by
  rw [moment_eq_sum_zipWith, moment_eq_sum_zipWith, ← List.reverse_zipWith h, List.sum_reverse]

/-- The coefficients of a stencil in reverse order, with a factor, have its moments with signs over the
offsets of the mirror image. -/
theorem moment_mirror (s : Stencil) (a : ℚ) (k : ℕ) :
    moment s.mirror.offsets (s.coefficients.map (a * ·)).reverse k
      = a * (-1) ^ k * moment s.offsets s.coefficients k := by
  rw [s.offsets_mirror, moment_reverse (by simp), moment_map_neg, moment_map_mul]
  ring

/-! ## Coefficients of mirror images -/

/-- **Mirrored coefficients.** The coefficients of the mirror image are those of the stencil in reverse
order, with opposite signs if the order is odd. -/
theorem coefficients_mirror (s : Stencil) :
    s.mirror.coefficients = (s.coefficients.map ((-1) ^ s.order * ·)).reverse := by
  refine eq_of_moment_eq_of_length s.mirror.nodup_offsets (by simp) (by simp [s.length_mirror])
    fun k hk => ?_
  rw [Stencil.length_offsets] at hk
  rw [moment_mirror, moment_coefficients_of_lt _ hk,
    moment_coefficients_of_lt s (by rwa [s.length_mirror] at hk)]
  -- only the moment at the order is not zero, and there the two signs cancel
  by_cases h : k = s.order
  · rw [if_pos h, h, ← pow_add, ← two_mul, pow_mul, neg_one_sq, one_pow, one_mul]
    exact if_pos rfl
  · rw [if_neg h, mul_zero]
    exact if_neg h

/-- Around the point the coefficients at opposite offsets agree, with opposite signs if the order is
odd. -/
theorem opposite_mem_zip_of_central {s : Stencil} (h : s.placement = .central) {o : ℤ} {c : ℚ}
    (hmem : (o, c) ∈ s.offsets.zip s.coefficients) :
    (-o, (-1) ^ s.order * c) ∈ s.offsets.zip s.coefficients := by
  have hoffsets := s.offsets_mirror
  have hcoefficients := coefficients_mirror s
  rw [Stencil.mirror_of_central h] at hoffsets hcoefficients
  have hzip : s.offsets.zip s.coefficients
      = ((s.offsets.zip s.coefficients).map
          (Prod.map (fun i : ℤ => -i) ((-1) ^ s.order * ·))).reverse := by
    conv_lhs => rw [hoffsets, hcoefficients]
    rw [← List.zip_map, List.zip_eq_zipWith, List.zip_eq_zipWith, List.reverse_zipWith (by simp)]
  rw [hzip, List.mem_reverse]
  exact List.mem_map_of_mem hmem

/-- Around the point the moments at powers of the other parity than the order vanish. -/
theorem moment_eq_zero_of_central {s : Stencil} (h : s.placement = .central) {k : ℕ}
    (hk : k % 2 ≠ s.order % 2) : moment s.offsets s.coefficients k = 0 := by
  have hmirror := moment_mirror s ((-1) ^ s.order) k
  rw [← coefficients_mirror, Stencil.mirror_of_central h, ← pow_add,
    Odd.neg_one_pow (Nat.odd_iff.mpr (by omega))] at hmirror
  linarith

variable {α : Type}

/-- **Mirror symmetry.** A stencil has its coefficients unless its offsets cannot be listed.  For positive
orders, those behind the point are those ahead of it in reverse order, with opposite signs if the order is
odd.  Around the point, the coefficient at an offset is the one at the opposite offset, again with opposite
signs if the order is odd, and all moments at powers of the other parity than the order vanish. -/
theorem mirrored_coefficients [Memory] :
    (∀ s : Stencil, (ofStencil s : Except (Fault α) (List ℚ))
      = s.listedOffsets.map fun _ => s.coefficients) ∧
    (∀ order accuracy : ℕ, 0 < order → 0 < accuracy → ∃ ahead behind : Stencil,
      (Stencil.ofOrders .forward order accuracy : Except (Fault α) Stencil) = .ok ahead ∧
      (Stencil.ofOrders .backward order accuracy : Except (Fault α) Stencil) = .ok behind ∧
      behind.coefficients = (ahead.coefficients.map ((-1) ^ order * ·)).reverse) ∧
    ∀ s : Stencil, s.placement = .central →
      (∀ o c, (o, c) ∈ s.offsets.zip s.coefficients →
        (-o, (-1) ^ s.order * c) ∈ s.offsets.zip s.coefficients) ∧
      ∀ k, k % 2 ≠ s.order % 2 → moment s.offsets s.coefficients k = 0 := by
  refine ⟨ofStencil_eq_map, fun order accuracy horder haccuracy => ?_, fun s h => ⟨?_, ?_⟩⟩
  · have hahead : Placement.forward.Accepts order accuracy :=
      .inr ⟨horder, haccuracy, fun hcentral => nomatch hcentral⟩
    exact ⟨⟨.forward, order, accuracy, hahead⟩, ⟨.backward, order, accuracy, hahead.mirror⟩,
      Stencil.ofOrders_natCast hahead, Stencil.ofOrders_natCast hahead.mirror,
      coefficients_mirror ⟨.forward, order, accuracy, hahead⟩⟩
  · intro o c hmem
    exact opposite_mem_zip_of_central h hmem
  · intro k hk
    exact moment_eq_zero_of_central h hk

end Coefficients

end FiniteDifference
