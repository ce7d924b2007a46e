import FiniteDifference.Argument.Nested
import FiniteDifference.Argument.Written
import FiniteDifference.Scalar.Binary64

/-!
# Uniform arrays

An array holds entries of one kind, so what it is made of is brought to a common kind first.  A single
text makes texts of the numbers beside it, a complex number makes complex numbers of them, a real number
makes real numbers of them, and truth values beside numbers become numbers.  Whole numbers beyond the words
of a machine and values of any other kind leave every entry as it is.
-/

namespace FiniteDifference

/-- **Common kinds.** What the entries of an array have in common. -/
inductive Common where
  | truths
  /-- Whole numbers that fit into a word with a sign. -/
  | signed
  /-- Whole numbers that fit into a word without a sign. -/
  | unsigned
  | reals
  | complexes
  | texts
  | mixed
  deriving DecidableEq, Repr

namespace Common

variable {α : Type}

/-- The kind of a whole number. -/
def ofInt (i : Int) : Common :=
  if -(0x8000000000000000 : Int) ≤ i ∧ i < 0x8000000000000000 then .signed
  else if 0 ≤ i ∧ i < 0x10000000000000000 then .unsigned
  else .mixed

/-- The kind of one entry. -/
def ofArgument : Argument α → Common
  | .bool _ => .truths
  | .int i => ofInt i
  | .real _ => .reals
  | .complex _ _ => .complexes
  | .text _ => .texts
  | _ => .mixed

/-- The order in which a kind absorbs another. -/
def rank : Common → Nat
  | .truths => 0
  | .signed => 1
  | .unsigned => 1
  | .reals => 2
  | .complexes => 3
  | .texts => 4
  | .mixed => 5

/-- **The kind of two entries together.** No word holds numbers with and without a sign, so these two
become real numbers. -/
def join (a b : Common) : Common :=
  if a.rank < b.rank then b
  else if b.rank < a.rank then a
  else if a = b then a
  else .reals

/-- The common kind of a list of entries. -/
def ofList (entries : List (Argument α)) : Common :=
  (entries.map ofArgument).foldl join .truths

/-- **Storing an entry.** An entry as it is held by an array of a common kind.  Texts lose the zero
characters at their end. -/
def store (common : Common) (a : Argument Float) : Except (Fault Float) (Argument Float) :=
  match common, a with
  | .signed, .bool b => .ok (.int (if b then 1 else 0))
  | .unsigned, .bool b => .ok (.int (if b then 1 else 0))
  | .reals, a => a.toScalar.map .real
  | .complexes, .complex re im => .ok (.complex re im)
  | .complexes, a => a.toScalar.map (.complex · Scalar.zero)
  | .texts, a =>
    .ok (.text (String.ofList (a.display.toList.reverse.dropWhile (· == '\x00')).reverse))
  | _, a => .ok a

end Common

/-- **Uniform arrays.** Nested lists as an array holds them: of one shape and with entries of one kind. -/
def Argument.uniform (a : Argument Float) : Except (Fault Float) (Argument Float) := do
  let shape ← a.extent.evenShape
  let entries := a.leaves
  return nest shape (← entries.mapM (Common.ofList entries).store)

end FiniteDifference
