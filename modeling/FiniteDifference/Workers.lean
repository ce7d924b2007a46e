import FiniteDifference.Number.Reading
import FiniteDifference.Quantity

/-!
# Workers

How many workers share a list of independent tasks, and how the tasks are run.
-/

namespace FiniteDifference

/-- **Machines.** The texts that limit the number of workers and the number of processors, if it is
known. -/
structure Machine where
  limits : List String
  processors : Option Nat
  deriving Inhabited

namespace Workers

variable {α : Type}

/-- The number of workers that a text allows, if it writes a positive one. -/
def limit? (text : String) : Option Int :=
  match Reading.int? text with
  | some n => if 0 < n then some n else none
  | none => none

/-- **Detected workers.** The number of processors, one if it is not known, capped by the lowest of
the limits. -/
def detect (machine : Machine) : Int :=
  let processors : Int := max 1 (machine.processors.getD 1 : Nat)
  (machine.limits.filterMap limit?).foldl min processors

/-- The whole number that an argument stands for, rounded toward zero; none if it stands for no
number. -/
def whole? [Scalar α] : Argument α → Except (Fault α) (Option Int)
  | .bool b => .ok (some (if b then 1 else 0))
  | .int i => .ok (some i)
  | .fraction q => .ok (some (q.num.tdiv q.den))
  | .text s => .ok (Reading.int? s)
  | .real x =>
    match Scalar.toRat? x with
    | some q => .ok (some (q.num.tdiv q.den))
    | none => if Scalar.isMissing x then .ok none else .error (.tooLarge .infiniteCount)
  | _ => .ok none

/-- **Requested workers.** At least one, and one if the request stands for no number. -/
def normalize [Scalar α] (request : Argument α) : Except (Fault α) Int := do
  return max 1 ((← whole? request).getD 1)

/-- The requested number of workers, or the detected one if none is requested. -/
def available [Scalar α] (machine : Machine) (request : Argument α) : Except (Fault α) Int :=
  match request with
  | .absent => .ok (detect machine)
  | request => normalize request

/-- **Workers for a number of tasks.** The available number, but not more than there are tasks. -/
def resolve [Scalar α] (machine : Machine) (request : Argument α) (tasks : Int) :
    Except (Fault α) Int := do
  return max 1 (min (← available machine request) tasks)

/-- **Workers for any number of tasks.** The available number, capped by a number of tasks of any
kind; what is not above one gives one. -/
def resolveFor [Scalar α] (machine : Machine) (request tasks : Argument α) :
    Except (Fault α) (Quantity α) := do
  let workers := Quantity.int (← available machine request)
  match Quantity.ofArgument? tasks with
  | some tasks =>
    let capped := if tasks.lt workers then tasks else workers
    return if (Quantity.int 1).lt capped then capped else .int 1
  | none => throw (.unsuitable (.notComparable "<" tasks.kindName "int"))

/-! ## Running tasks -/

/-- The results of a list of outcomes, or the first fault among them. -/
def firstFault {ε β : Type} : List (Except ε β) → Except ε (List β)
  | [] => .ok []
  | .error e :: _ => .error e
  | .ok b :: rest => (firstFault rest).map (b :: ·)

/-- **Running tasks.** A single worker runs them in order up to the first one that fails.  Several
workers run all of them, each in a copy of the caller's context as `isolate` provides it, and then
report the first fault in the order of the tasks. -/
def execute {m : Type → Type} [Monad m] {ε β τ : Type} (workers : Int)
    (isolate : m (Except ε β) → m (Except ε β)) (task : τ → ExceptT ε m β) (tasks : List τ) :
    ExceptT ε m (List β) :=
  if 1 < workers then
    ExceptT.mk do
      let outcomes ← tasks.mapM fun t => isolate (task t).run
      return firstFault outcomes
  else tasks.mapM task

end Workers

/-- **Crews.** The workers that are requested for sampling and the machine they run on. -/
structure Crew (α : Type) where
  request : Argument α
  machine : Machine

/-- A single worker. -/
def Crew.single {α : Type} : Crew α := ⟨.int 1, default⟩

end FiniteDifference
