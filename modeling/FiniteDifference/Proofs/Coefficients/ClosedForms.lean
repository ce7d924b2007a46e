import FiniteDifference.Proofs.Coefficients.ConsecutiveOffsets
import FiniteDifference.Proofs.Coefficients.Mirror
import FiniteDifference.Proofs.Coefficients.Solvable

/-!
# Families with closed forms

Four families of stencils have textbook coefficients: the least accurate ones of every order ahead of the
point and around it, where they are binomial coefficients, and the first derivatives of every accuracy
ahead of the point and around it, where they are quotients of factorials.  The coefficients are the weights
of consecutive offsets, so each family is an instance of the formulas for these.
-/

namespace FiniteDifference.Coefficients

/-! ## The forms -/

/-- Coefficients of the least accurate stencil ahead of the point. -/
def leastForward (d : ℕ) (o : ℤ) : ℚ :=
  (-1) ^ (d - o.toNat) * d.choose o.toNat

/-- Coefficients of the least accurate stencil of even order `2 * j` around the point. -/
def leastCentral (j : ℕ) (o : ℤ) : ℚ :=
  (-1) ^ (j + o).toNat * (2 * j).choose (j + o).toNat

/-- Coefficients of the first derivative of accuracy `n` ahead of the point. -/
def firstForward (n : ℕ) (o : ℤ) : ℚ :=
  if o = 0 then -harmonic n else (-1) ^ (o.toNat + 1) * n.choose o.toNat / o

/-- Coefficients of the first derivative of accuracy `2 * m` around the point, at the offsets ahead. -/
def firstCentralAhead (m o : ℕ) : ℚ :=
  (-1) ^ (o + 1) * (m.factorial : ℚ) ^ 2 / (o * (m - o).factorial * (m + o).factorial)

/-- Coefficients of the first derivative of accuracy `2 * m` around the point. -/
def firstCentral (m : ℕ) (o : ℤ) : ℚ :=
  if o < 0 then -firstCentralAhead m (-o).toNat
  else if o = 0 then 0
  else firstCentralAhead m o.toNat

variable {α : Type}

/-- **Closed forms.** The orders make a stencil between two given offsets.  Its coefficients are the values
of a function at the offsets, unless these cannot be listed. -/
def HasClosedForm [Memory] (α : Type) (placement : Placement) (order accuracy : ℕ) (left right : ℤ)
    (value : ℤ → ℚ) : Prop :=
  ∃ s : Stencil, (Stencil.ofOrders placement order accuracy : Except (Fault α) Stencil) = .ok s ∧
    s.left = left ∧ s.right = right ∧
    (ofStencil s : Except (Fault α) (List ℚ)) =
      if s.length < Memory.room then .ok (s.offsets.map value)
      else if s.length < RowMajor.sizeBound then .error .noRoom
      else .error (.tooLarge .list)

/-- A function that gives the weights of a stencil is a closed form. -/
theorem hasClosedForm_of_weight [Memory] (s : Stencil) {value : ℤ → ℚ}
    (h : ∀ o ∈ s.offsets, weight s.offsets s.order o = value o) :
    HasClosedForm α s.placement s.order s.accuracy s.left s.right value := by
  refine ⟨s, Stencil.ofOrders_natCast s.accepted, rfl, rfl, ?_⟩
  rw [← List.map_congr_left h]
  exact ofStencil_eq s

/-! ## The least accurate stencils -/

/-- **Forward differences.** The coefficient at the offset `i` is `(-1) ^ (d - i) * C(d, i)`. -/
theorem hasClosedForm_leastForward [Memory] {d : ℕ} (hd : 0 < d) :
    HasClosedForm α .forward d 1 0 d (leastForward d) := by
  let s : Stencil := ⟨.forward, d, 1, .inr ⟨hd, Nat.one_pos, fun h => nomatch h⟩⟩
  refine hasClosedForm_of_weight s fun o ho => ?_
  obtain ⟨hlow, -⟩ : 0 ≤ o ∧ o ≤ (d : ℤ) := (s.mem_offsets o).mp ho
  obtain ⟨i, rfl⟩ := Int.eq_ofNat_of_zero_le hlow
  have hlength : s.length = s.order + 1 := s.length_of_ne_central hd (fun h => nomatch h)
  rw [s.weight_of_length_eq_succ hlength ho, leastForward]
  show (-1 : ℚ) ^ ((d : ℤ) - i).toNat * (d.choose ((i : ℤ) - 0).toNat : ℚ) = _
  rw [sub_zero, Int.toNat_sub, Int.toNat_natCast]

/-- The two sides of a central grid. -/
theorem sides_of_central {s : Stencil} (h : s.placement = .central) {j : ℕ}
    (hspan : (s.span - 1) / 2 = j) :
    s.behind = j ∧ s.ahead = j ∧ s.left = -j ∧ s.right = j := by
  have hbehind : s.behind = j := by rw [Stencil.behind, h, ← hspan]
  have hahead : s.ahead = j := by rw [Stencil.ahead, h, ← hspan]
  exact ⟨hbehind, hahead, by rw [Stencil.left, hbehind], by rw [Stencil.right, hahead]⟩

/-- **Central differences.** The coefficient at the offset `o` is `(-1) ^ (j + o) * C(2 * j, j + o)`. -/
theorem hasClosedForm_leastCentral [Memory] {j : ℕ} (hj : 0 < j) :
    HasClosedForm α .central (2 * j) 2 (-j) j (leastCentral j) := by
  let s : Stencil := ⟨.central, 2 * j, 2, .inr ⟨by omega, by omega, fun _ => rfl⟩⟩
  have horder : s.order = 2 * j := rfl
  obtain ⟨hbehind, hahead, hleft, hright⟩ :=
    sides_of_central (s := s) rfl (j := j) (by show (2 * j + 2 - 1) / 2 = j; omega)
  rw [← hleft, ← hright]
  refine hasClosedForm_of_weight s fun o ho => ?_
  have hends := (s.mem_offsets o).mp ho
  rw [hleft, hright] at hends
  have hsign : (-1 : ℚ) ^ (j - o).toNat = (-1) ^ (j + o).toNat := neg_one_pow_eq (c := j) (by omega)
  rw [s.weight_of_length_eq_succ (by rw [length_of_central rfl, hahead, horder]) ho, leastCentral,
    horder, hleft, hright, hsign, sub_neg_eq_add, add_comm o]

/-! ## The first derivatives -/

/-- **First derivatives ahead of the point.** The coefficient at zero is `-(1 + 1 / 2 + ⋯ + 1 / n)`, the
one at the offset `i` is `(-1) ^ (i + 1) * C(n, i) / i`. -/
theorem hasClosedForm_firstForward [Memory] {n : ℕ} (hn : 0 < n) :
    HasClosedForm α .forward 1 n 0 n (firstForward n) := by
  let s : Stencil := ⟨.forward, 1, n, .inr ⟨Nat.one_pos, hn, fun h => nomatch h⟩⟩
  have hahead : s.ahead = n := Nat.add_sub_cancel_left 1 n
  have hbehind : s.behind = 0 := rfl
  have hleft : s.left = 0 := rfl
  have hright : s.right = n := by rw [Stencil.right, hahead]
  rw [← hright]
  refine hasClosedForm_of_weight s fun o ho => ?_
  obtain ⟨hlow, hhigh⟩ := (s.mem_offsets o).mp ho
  show weight s.offsets 1 o = _
  obtain ⟨i, rfl⟩ := Int.eq_ofNat_of_zero_le hlow
  by_cases hzero : (i : ℤ) = 0
  · rw [hzero, s.weight_one_zero, hbehind, hahead, firstForward, if_pos rfl]
    simp
  · obtain ⟨k, rfl⟩ : ∃ k, n = i + k := ⟨n - i, by omega⟩
    have hside : (((i + k : ℕ) : ℤ) - i).toNat = k := by omega
    rw [s.weight_one_of_ne_zero ho hzero, hbehind, hahead, hleft, hright, sub_zero, hside, firstForward,
      if_neg hzero, Int.natAbs_natCast, Int.toNat_natCast, Int.cast_natCast, Nat.cast_add_choose,
      Nat.factorial_zero, Nat.cast_one, one_mul]
    field_simp

/-- **First derivatives around the point.** The coefficient at zero is zero, the one at the offset `o`
ahead is `(-1) ^ (o + 1) * (m !) ^ 2 / (o * (m - o)! * (m + o)!)`, and its opposite is at the opposite
offset. -/
theorem hasClosedForm_firstCentral [Memory] {m : ℕ} (hm : 0 < m) :
    HasClosedForm α .central 1 (2 * m) (-m) m (firstCentral m) := by
  let s : Stencil := ⟨.central, 1, 2 * m, .inr ⟨Nat.one_pos, by omega, fun _ => by omega⟩⟩
  obtain ⟨hbehind, hahead, hleft, hright⟩ :=
    sides_of_central (s := s) rfl (j := m) (by show (1 + 2 * m - 1) / 2 = m; omega)
  rw [← hleft, ← hright]
  refine hasClosedForm_of_weight s fun o ho => ?_
  have hends := (s.mem_offsets o).mp ho
  rw [hleft, hright] at hends
  show weight s.offsets 1 o = _
  rw [firstCentral]
  split_ifs with hneg hzero
  · obtain ⟨k, rfl⟩ : ∃ k : ℕ, o = -k := ⟨o.natAbs, by omega⟩
    have hlow : (-(k : ℤ) - -m).toNat = m - k := by omega
    have hhigh : ((m : ℤ) - -k).toNat = m + k := by omega
    rw [s.weight_one_of_ne_zero ho hneg.ne, hbehind, hahead, hleft, hright, hlow, hhigh, firstCentralAhead,
      neg_neg, Int.natAbs_neg, Int.natAbs_natCast, Int.toNat_natCast, Int.cast_neg, Int.cast_natCast]
    ring
  · rw [hzero, s.weight_one_zero, hbehind, hahead, sub_self]
  · obtain ⟨k, rfl⟩ := Int.eq_ofNat_of_zero_le (not_lt.mp hneg)
    have hlow : ((k : ℤ) - -m).toNat = m + k := by omega
    rw [s.weight_one_of_ne_zero ho hzero, hbehind, hahead, hleft, hright, hlow, Int.toNat_sub,
      firstCentralAhead, Int.natAbs_natCast, Int.toNat_natCast, Int.cast_natCast]
    ring

/-! ## The families -/

/-- **Textbook families.** All four families have the closed forms of the textbooks, in every order or
accuracy. -/
theorem families_haveClosedForms [Memory] :
    (∀ d : ℕ, 0 < d → HasClosedForm α .forward d 1 0 d (leastForward d)) ∧
    (∀ j : ℕ, 0 < j → HasClosedForm α .central (2 * j) 2 (-j) j (leastCentral j)) ∧
    (∀ n : ℕ, 0 < n → HasClosedForm α .forward 1 n 0 n (firstForward n)) ∧
    ∀ m : ℕ, 0 < m → HasClosedForm α .central 1 (2 * m) (-m) m (firstCentral m) :=
  ⟨fun _ => hasClosedForm_leastForward, fun _ => hasClosedForm_leastCentral,
    fun _ => hasClosedForm_firstForward, fun _ => hasClosedForm_firstCentral⟩

/-- The first derivative from five points around the point is of the last family. -/
theorem closedForm_fivePointCentral :
    letI : Memory := .ample
    0 < 2 ∧ (ofStencil .fivePointCentral : Except (Fault Float) (List ℚ))
      = .ok [1 / 12, -2 / 3, 0, 2 / 3, -1 / 12] := by
  let : Memory := .ample
  obtain ⟨s, hs, -, -, hcoefficients⟩ :=
    (families_haveClosedForms (α := Float)).2.2.2 2 (by decide)
  obtain rfl : Stencil.fivePointCentral = s :=
    Except.ok.inj ((Stencil.ofOrders_natCast Stencil.fivePointCentral.accepted).symm.trans hs)
  have hoffsets : Stencil.fivePointCentral.offsets = [-2, -1, 0, 1, 2] := by decide
  have hroom : Stencil.fivePointCentral.length < Memory.ample.room := by decide
  have htwo : (2 : ℤ).toNat = 2 := rfl
  refine ⟨by decide, hcoefficients.trans ?_⟩
  rw [if_pos hroom, hoffsets]
  norm_num [firstCentral, firstCentralAhead, Nat.factorial, htwo]

/-- **Beyond the bound.** A stencil whose offsets cannot be counted has no coefficients. -/
theorem not_closedForm_on_uncountedForward :
    letI : Memory := .ample
    ¬∀ n : ℕ, 0 < n → ∃ s : Stencil,
      (Stencil.ofOrders .forward 1 n : Except (Fault Float) Stencil) = .ok s ∧
        (ofStencil s : Except (Fault Float) (List ℚ)) = .ok (s.offsets.map (firstForward n)) := by
  let : Memory := .ample
  intro hall
  obtain ⟨s, hs, hcoefficients⟩ := hall 0x8000000000000000 (by decide)
  obtain rfl : Stencil.uncountedForward = s :=
    Except.ok.inj ((Stencil.ofOrders_natCast Stencil.uncountedForward.accepted).symm.trans hs)
  have hcounted := Stencil.not_counted_uncountedForward
  rw [ofStencil_eq, if_neg (Stencil.not_lt_room_of_uncounted hcounted), if_neg hcounted] at hcoefficients
  cases hcoefficients

end FiniteDifference.Coefficients
