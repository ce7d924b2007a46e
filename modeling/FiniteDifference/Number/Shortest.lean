import FiniteDifference.Number.Binary64

/-!
# Shortest decimals

Every positive double has an interval of real numbers that round to it.  `shortest` gives the
decimal of that interval with the fewest digits and, among those, the one nearest to the double.
-/

namespace FiniteDifference

/-- The decimal `digits * 10 ^ place`. -/
structure Decimal where
  digits : Nat
  place : Int
  deriving Repr, DecidableEq, Inhabited

namespace Decimal

/-- The positive number `m * 2 ^ k`.  `narrow` says that the doubles below it lie twice as close as
those above it, which is so at a power of two. -/
structure Target where
  m : Nat
  k : Int
  narrow : Bool

namespace Target

/-- A quarter of the last place, counted `quarters` times, on the scale of `step`. -/
def quarter (t : Target) (place : Int) (quarters : Nat) : Nat :=
  (quarters <<< t.k.toNat) * Nat.pow 10 (-place).toNat

/-- One unit of the decimal grid at `place`, on the scale of `quarter`. -/
def step (t : Target) (place : Int) : Nat :=
  (4 <<< (-t.k).toNat) * Nat.pow 10 place.toNat

/-- Whether a point of the decimal grid rounds to the target.  The ends of the interval round to an
even significand. -/
def accepts (t : Target) (place : Int) (digits : Nat) : Bool :=
  let point := digits * t.step place
  let low := t.quarter place (4 * t.m - if t.narrow then 1 else 2)
  let high := t.quarter place (4 * t.m + 2)
  if t.m % 2 = 0 then low ≤ point && point ≤ high
  else low < point && point < high

/-- Of the two neighbours of the target on a decimal grid, the one that rounds to it; the nearer if
both do, and the even one if they are equally near. -/
def onGrid? (t : Target) (place : Int) : Option Decimal :=
  let unit := t.step place
  let here := t.quarter place (4 * t.m)
  let below := here / unit
  let rest := here % unit
  match t.accepts place below, t.accepts place (below + 1) with
  | true, true =>
    some ⟨if 2 * rest < unit || (2 * rest == unit && below % 2 == 0) then below else below + 1,
      place⟩
  | true, false => some ⟨below, place⟩
  | false, true => some ⟨below + 1, place⟩
  | false, false => none

/-- A place at which the decimal grid is coarser than the target. -/
def coarsePlace (t : Target) : Int :=
  ((Nat.log2 t.m : Int) + t.k + 1) * 30103 / 100000 + 1

/-- **Shortest decimal.** The first hit on ever finer grids.  Seventeen digits always suffice, so
the search ends within the grids listed. -/
def shortest (t : Target) : Decimal :=
  (((List.range 20).map fun (i : Nat) => t.coarsePlace - (i : Int)).findSome? t.onGrid?).getD
    ⟨0, 0⟩

end Target

/-- The shortest decimal of a finite positive magnitude word. -/
def ofWord (word : Nat) : Decimal :=
  Target.shortest
    { m := Binary64.significand word
      k := Binary64.lastPlace word
      narrow := Binary64.fractionCount < word && word % Binary64.fractionCount == 0 }

end Decimal

end FiniteDifference
