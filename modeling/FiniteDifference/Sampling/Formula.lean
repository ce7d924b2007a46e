import FiniteDifference.Sampling.Arithmetic

/-!
# Formulas

Sampled functions that are given by a formula in double-precision arithmetic.  Operands are evaluated
from left to right, and the first fault among them is the fault of the formula.
-/

namespace FiniteDifference

/-- **Formulas.** -/
inductive Formula where
  /-- The point itself. -/
  | argument
  | coordinate (i : Int)
  | constant (x : Float)
  | binary (o : Operator) (a b : Formula)
  | neg (a : Formula)
  | abs (a : Formula)
  | power (a : Formula) (k : Int)
  | sin (a : Formula)
  | cos (a : Formula)
  | exp (a : Formula)
  | log (a : Formula)
  | sqrt (a : Formula)
  /-- The third formula if the first is less than the second, the fourth otherwise. -/
  | ifLess (a b thenPart elsePart : Formula)
  | nothing
  | vector (items : List Formula)
  | fail (message : String)

namespace Formula

mutual

/-- **Value of a formula.** -/
def eval (p : Point Float) : Formula → Sample.Outcome (Sample Float)
  | .argument => .ok (.ofPoint p)
  | .coordinate i => Sample.coordinate p i
  | .constant x => .ok (.number x)
  | .binary o a b => do
    let x ← eval p a
    let y ← eval p b
    x.combine o y
  | .neg a => eval p a >>= Sample.neg
  | .abs a => eval p a >>= Sample.abs
  | .power a k => eval p a >>= (Sample.power · k)
  | .sin a => eval p a >>= Sample.sin
  | .cos a => eval p a >>= Sample.cos
  | .exp a => eval p a >>= Sample.exp
  | .log a => eval p a >>= Sample.log
  | .sqrt a => eval p a >>= Sample.sqrt
  | .ifLess a b thenPart elsePart => do
    let x ← eval p a
    let y ← eval p b
    if ← x.isLess y then eval p thenPart else eval p elsePart
  | .nothing => .ok .absent
  | .vector items => evalAll p items >>= Sample.stack
  | .fail message => .error (.raised message)

/-- The values of the components of an array. -/
def evalAll (p : Point Float) : List Formula → Sample.Outcome (List (Sample Float))
  | [] => .ok []
  | a :: rest => do
    let x ← eval p a
    return x :: (← evalAll p rest)

end

/-- **The sampled function of a formula.** It has no value at an array of more than one axis. -/
def sampled (a : Formula) : SampledFunction Float :=
  .rule fun p => if p.isFlat then a.eval p else .error (.unsuitable .notSingle)

end Formula

end FiniteDifference
