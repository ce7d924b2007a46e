import FiniteDifference.Proofs.Cache.Lookups

/-!
# Composed actions

Everything that is asked of the library in a session is composed of a few parts: computations that do not
touch the session, recorded calls, journal entries about estimates, and lookups of coefficients.  What
holds of the parts and is kept by sequences and attempts therefore holds of every request.
-/

open FiniteDifference.Action

namespace FiniteDifference

variable [Memory] {α β γ : Type}

/-- The stencil whose coefficients are generated, if this is what a journal entry is about. -/
def Entry.generated? : Entry α → Option Descriptor
  | .generating d => some d
  | _ => none

namespace Action

variable [Scalar α]

/-- **Composed actions.** The actions built from the parts of requests.  Only lookups change the cache and
report that coefficients are generated. -/
inductive Composed : {β : Type} → Action α β → Prop
  | ofExcept {β : Type} (outcome : Except (Fault α) β) : Composed (Action.ofExcept outcome)
  | recordCall (p : Point α) : Composed (Action.recordCall p)
  | note (entry : Entry α) (h : entry.generated? = none) : Composed (Action.note entry)
  | exactOf (d : Descriptor) : Composed (Cache.exactOf d)
  | scalarsOf (d : Descriptor) : Composed (Cache.scalarsOf d)
  | attempt {β : Type} {a : Action α β} (h : Composed a) :
      Composed (ExceptT.mk do return .ok (← a.run) : Action α (Except (Fault α) β))
  | bind {β γ : Type} {a : Action α β} {f : β → Action α γ} (ha : Composed a)
      (hf : ∀ b, Composed (f b)) : Composed (a >>= f)

namespace Composed

/-! ## Further rules -/

theorem pure (b : β) : Composed (Pure.pure b : Action α β) := ofExcept (.ok b)

theorem fail (fault : Fault α) : Composed (Action.fail fault : Action α β) := ofExcept (.error fault)

theorem ite {c : Prop} [Decidable c] {a b : Action α β} (ha : Composed a) (hb : Composed b) :
    Composed (if c then a else b) := by
  split
  · exact ha
  · exact hb

/-- A list of actions. -/
theorem mapM {τ : Type} {task : τ → Action α β} (h : ∀ t, Composed (task t)) (tasks : List τ) :
    Composed (tasks.mapM task) := by
  induction tasks with
  | nil => exact pure []
  | cons t tasks ih =>
    rw [List.mapM_cons]
    exact bind (h t) fun b => bind ih fun bs => pure (b :: bs)

/-! ## Transparency -/

/-- **Composed actions are transparent.** No part can tell one sound cache from another. -/
theorem transparent {a : Action α β} (h : Composed a) : Transparent a := by
  induction h with
  | ofExcept outcome => exact (Yields.ofExcept outcome).transparent
  | recordCall p => exact (Yields.recordCall p).transparent
  | note entry => exact (Yields.note entry).transparent
  | exactOf d => exact (Cache.yields_exactOf d).transparent
  | scalarsOf d => exact (Cache.yields_scalarsOf d).transparent
  | attempt h ih => exact ih.attempt
  | bind ha hf iha ihf => exact iha.bind ihf

end Composed

end Action

/-! ## Lookups for arguments -/

namespace Cache

variable [Scalar α]

theorem composed_exact (a : Argument α) : Composed (exact a) :=
  .bind (.ofExcept _) .exactOf

theorem composed_coefficients (a : Argument α) : Composed (coefficients a) :=
  .bind (.ofExcept _) fun _ => .bind (.ofExcept _) .scalarsOf

theorem composed_norm (a : Argument α) : Composed (norm a) :=
  .bind (composed_coefficients a) fun _ => .pure _

end Cache

end FiniteDifference
