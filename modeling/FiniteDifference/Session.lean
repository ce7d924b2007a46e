import FiniteDifference.Argument.Number
import FiniteDifference.Cache.Basic

/-!
# Sessions

What a request leaves behind: the entries of the coefficient cache, the points at which functions were
sampled and the entries of the journal.  An `Action` is a computation that may fail and that reads and
changes a session; what it changed before a failure stays.
-/

namespace FiniteDifference

/-- **Points.** The argument of a sampled function: a number, or an array of coordinates. -/
inductive Point (α : Type) where
  | number (x : α)
  | block (b : Block α)

/-- The point with the given coordinates. -/
def Point.vector {α : Type} (xs : List α) : Point α := .block ⟨[xs.length], xs⟩

/-- **Flat points.** Whether a point is a number or has at most one axis. -/
def Point.isFlat {α : Type} : Point α → Bool
  | .number _ => true
  | .block b => b.shape.length ≤ 1

/-- **Journal entries.** -/
inductive Entry (α : Type) where
  /-- The coefficients of a stencil are generated. -/
  | generating (d : Descriptor)
  /-- A derivative is estimated with a bandwidth. -/
  | using (h x : α) (s : Stencil)
  /-- A mixed derivative is estimated with one bandwidth per axis. -/
  | usingVector (hs xs : List α)
  /-- The truncation coefficient is too small to improve on a trial bandwidth. -/
  | negligible (coefficient : α) (x : Argument α) (h : α)
  /-- The function vanishes, so its trial bandwidth is kept. -/
  | vanishing (x : Argument α) (h : α)

/-- **Sessions.** -/
structure Session (α : Type) where
  cache : Cache α
  calls : List (Point α)
  journal : List (Entry α)

/-- A session without history. -/
def Session.empty {α : Type} : Session α := ⟨Cache.empty, [], []⟩

/-- **Actions.** -/
abbrev Action (α β : Type) := ExceptT (Fault α) (StateM (Session α)) β

namespace Action

variable {α β : Type}

/-- The outcome of an action and the session after it. -/
def perform (action : Action α β) (session : Session α) : Except (Fault α) β × Session α :=
  (ExceptT.run action).run session

/-- Fails. -/
def fail (fault : Fault α) : Action α β := throw fault

/-- A computation that does not touch the session. -/
def ofExcept (outcome : Except (Fault α) β) : Action α β := liftM outcome

/-- Reads the cache. -/
def cache : Action α (Cache α) := do return (← get).cache

/-- Changes the cache. -/
def updateCache (f : Cache α → Cache α) : Action α Unit :=
  modify fun session => { session with cache := f session.cache }

/-- Records the point at which a function is sampled. -/
def recordCall (p : Point α) : Action α Unit :=
  modify fun session => { session with calls := session.calls ++ [p] }

/-- Writes an entry into the journal. -/
def note (entry : Entry α) : Action α Unit :=
  modify fun session => { session with journal := session.journal ++ [entry] }

end Action

end FiniteDifference
