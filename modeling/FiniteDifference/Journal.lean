import FiniteDifference.Argument.Written
import FiniteDifference.Session

/-!
# Journals

The text of journal entries in double precision.
-/

namespace FiniteDifference

/-- **Written entry.** -/
def Entry.message : Entry Float → String
  | .generating d => "Generating stencil coefficients for " ++ d.label ++ "."
  | .using h x s =>
    "Using bandwidth " ++ writeReal h ++ " at x=" ++ writeReal x ++ " for " ++ s.label ++ "."
  | .usingVector hs xs =>
    "Using bandwidth " ++ writeReals hs ++ " at point=" ++ writeReals xs ++ "."
  | .negligible coefficient x h =>
    "Truncation coefficient " ++ writeReal coefficient ++ " below epsilon at x=" ++ x.inspect ++
      "; keeping h=" ++ writeReal h ++ "."
  | .vanishing x h =>
    "f(x) is zero at x=" ++ x.inspect ++ "; keeping h=" ++ writeReal h ++ "."

/-- The texts of the journal of a session. -/
def Session.messages (session : Session Float) : List String := session.journal.map Entry.message

end FiniteDifference
