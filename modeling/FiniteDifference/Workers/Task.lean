import FiniteDifference.Workers

/-!
# Tasks with a context

Small tasks on integers that run beside a context variable, to be shared among workers.
-/

namespace FiniteDifference.Workers

/-- **Marks.** The value of the context variable, and the result of a task: what the caller left, or a
number. -/
inductive Mark where
  | caller
  | number (i : Int)
  deriving DecidableEq, Repr

/-- **Tasks.** -/
inductive Task where
  /-- The sum of numbers. -/
  | sum (xs : List Int)
  /-- The quotient of two numbers, rounded down. -/
  | quotient (x y : Int)
  /-- Replaces the context variable by a number and gives its old value. -/
  | swap (i : Int)

namespace Task

/-- Runs a task. -/
def run {α : Type} : Task → ExceptT (Fault α) (StateM Mark) Mark
  | .sum xs => return .number (xs.foldl (· + ·) 0)
  | .quotient x y =>
    if y = 0 then throw (.zeroDivision .integer) else return .number (x.fdiv y)
  | .swap i => do
    let old ← getThe Mark
    set (Mark.number i)
    return old

/-- Runs a task in a copy of the context: what it changes there is dropped. -/
def isolate {β : Type} (task : StateM Mark β) : StateM Mark β := do
  let before ← get
  let result ← task
  set before
  return result

/-- **Running tasks in a context.** The outcome of a list of tasks, and the context variable of the
caller afterwards. -/
def execute {α : Type} (workers : Int) (tasks : List Task) :
    Except (Fault α) (List Mark) × Mark :=
  ((Workers.execute workers isolate run tasks).run).run .caller

end Task

end FiniteDifference.Workers
