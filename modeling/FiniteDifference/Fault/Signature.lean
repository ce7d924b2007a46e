import FiniteDifference.Fault.Basic

/-!
# Signatures

How many arguments an operation takes, and the faults of giving it fewer or more.
-/

namespace FiniteDifference

/-- **Signatures.** The name of an operation, the names of the arguments it needs, and how many more
it takes.  `implied` arguments come with the operation itself and are counted as given. -/
structure Signature where
  name : String
  needed : List String
  optional : Nat
  implied : Nat

/-- **Checking a number of arguments.** The arguments that are missing are named, those that are too
many are counted. -/
def Signature.check {α : Type} (s : Signature) (given : Nat) : Except (Fault α) Unit :=
  let least := s.needed.length
  let most := least + s.optional
  if given < least then .error (.unsuitable (.tooFew s.name (s.needed.drop given)))
  else if most < given then
    .error (.unsuitable
      (.tooMany s.name (least + s.implied) (most + s.implied) (given + s.implied)))
  else .ok ()

end FiniteDifference
