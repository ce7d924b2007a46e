import FiniteDifference.Scalar

/-!
# Blocked summation

Long sums of scalars are taken in blocks.  Up to seven terms are added from left to right; up to 128
terms go to eight lanes that are joined in pairs at the end; a longer list is split near its middle,
at a multiple of eight.
-/

namespace FiniteDifference.Summation

variable {α : Type} [Scalar α]

/-- Adds further terms to eight lanes, eight at a time, and gives the lanes and the terms left over. -/
def fillLanes (lanes : List α) : List α → List α × List α
  | a :: b :: c :: d :: e :: f :: g :: h :: rest =>
    fillLanes (List.zipWith (· + ·) lanes [a, b, c, d, e, f, g, h]) rest
  | rest => (lanes, rest)

/-- Joins neighbouring lanes until one is left. -/
def joinLanes : List α → α
  | [a, b, c, d, e, f, g, h] => ((a + b) + (c + d)) + ((e + f) + (g + h))
  | lanes => Scalar.sum lanes

/-- The sum of at most 128 terms. -/
def blockSum (xs : List α) : α :=
  if xs.length < 8 then Scalar.sum xs
  else
    let (lanes, rest) := fillLanes (xs.take 8) (xs.drop 8)
    rest.foldl (· + ·) (joinLanes lanes)

/-- Where a list of more than 128 terms is split. -/
def splitPoint (n : Nat) : Nat := n / 2 - n / 2 % 8

/-- **Blocked sum.** -/
def sum (xs : List α) : α :=
  if xs.length ≤ 128 then blockSum xs
  else sum (xs.take (splitPoint xs.length)) + sum (xs.drop (splitPoint xs.length))
termination_by xs.length
decreasing_by
  all_goals simp only [List.length_take, List.length_drop, splitPoint]; omega

end FiniteDifference.Summation
