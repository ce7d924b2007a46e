import FiniteDifference.Proofs.Cache.Yields

/-!
# What actions return

A property of the answers of an action, whatever session it starts from; an action that fails has no
answer.  The rules of this module follow the parts of an action, so that the answers of its first part
may be used for the second.
-/

namespace FiniteDifference.Action

variable {α β γ : Type}

/-- **Returning.** Every answer of the action, from any session, has the property. -/
def Returns (a : Action α β) (P : β → Prop) : Prop :=
  ∀ (session : Session α) (b : β), (a.perform session).1 = .ok b → P b

namespace Returns

variable {a : Action α β} {f : β → Action α γ} {P : β → Prop} {Q : γ → Prop}

theorem pure {b : β} (h : P b) : Returns (Pure.pure b : Action α β) P := by
  intro session b' hb
  cases hb
  exact h

/-- A computation that does not touch the session. -/
theorem ofExcept {outcome : Except (Fault α) β} (h : ∀ b, outcome = .ok b → P b) :
    Returns (Action.ofExcept outcome) P := by
  intro session b hb
  cases outcome with
  | error fault => cases hb
  | ok b' => exact h b hb

theorem mono {P' : β → Prop} (ha : Returns a P) (h : ∀ b, P b → P' b) : Returns a P' :=
  fun session b hb => h b (ha session b hb)

/-- Two actions in sequence: the second one may use what the first returns. -/
theorem bind (ha : Returns a P) (hf : ∀ b, P b → Returns (f b) Q) : Returns (a >>= f) Q := by
  intro session c hc
  cases hout : (a.perform session).1 with
  | error fault =>
    rw [perform_bind_error (Prod.ext hout rfl)] at hc
    cases hc
  | ok b =>
    rw [perform_bind_ok (Prod.ext hout rfl)] at hc
    exact hf b (ha session b hout) _ c hc

/-- Two actions in sequence, whatever the first one returns. -/
theorem after (hf : ∀ b, Returns (f b) Q) : Returns (a >>= f) Q :=
  bind (P := fun _ => True) (fun _ _ _ => trivial) fun b _ => hf b

theorem ite {c : Prop} [Decidable c] {a' : Action α β} (ha : Returns a P) (ha' : Returns a' P) :
    Returns (if c then a else a') P := by
  split
  · exact ha
  · exact ha'

end Returns

end FiniteDifference.Action
