import FiniteDifference.Proofs.Cache.Composed

/-!
# Confined calls

A transparent action yields the outcome and the calls that it has in a session without history, and a
sequence that succeeds splits into what its two parts yield.  An action is confined to some points if it
calls functions nowhere else, whatever the functions answer; sequences, attempts and lists of confined
actions are confined.
-/

namespace FiniteDifference.Action

variable [Memory] {α β γ τ : Type} [Scalar α]

/-! ## Without history -/

/-- **Fresh outcome.** The outcome in a session without history. -/
def freshOutcome (a : Action α β) : Except (Fault α) β := (a.perform Session.empty).1

/-- **Fresh calls.** The calls in a session without history. -/
def freshCalls (a : Action α β) : List (Point α) := (a.perform Session.empty).2.calls

variable {a : Action α β} {f : β → Action α γ} {outcome outcome' : Except (Fault α) β}
  {calls calls' : List (Point α)}

theorem Yields.ofExcept_map (computed : Except (Fault α) β) (g : β → γ) :
    Yields (Action.ofExcept computed >>= fun b => Pure.pure (g b) : Action α γ) (computed.map g) [] := by
  cases computed with
  | error fault => exact Yields.bind_error (Yields.ofExcept _)
  | ok b => exact Yields.silent_bind (Yields.ofExcept _) (Yields.pure (g b))

/-- What an action yields, it has in a session without history. -/
theorem Yields.eq_fresh (h : Yields a outcome calls) :
    outcome = a.freshOutcome ∧ calls = a.freshCalls := by
  obtain ⟨hout, hcalls, -⟩ := h Session.empty Cache.sound_empty
  exact ⟨hout.symm, (hcalls.trans (List.nil_append calls)).symm⟩

theorem Yields.unique (h : Yields a outcome calls) (h' : Yields a outcome' calls') :
    outcome = outcome' ∧ calls = calls' :=
  ⟨h.eq_fresh.1.trans h'.eq_fresh.1.symm, h.eq_fresh.2.trans h'.eq_fresh.2.symm⟩

/-- **Transparent actions** yield on every sound cache what they have in a session without history. -/
theorem Transparent.yields (h : Transparent a) : Yields a a.freshOutcome a.freshCalls := by
  obtain ⟨outcome, calls, hyields⟩ := h
  obtain ⟨rfl, rfl⟩ := hyields.eq_fresh
  exact hyields

theorem freshOutcome_bind (ha : Transparent a) (hf : ∀ b, Transparent (f b)) :
    (a >>= f).freshOutcome = a.freshOutcome >>= fun b => (f b).freshOutcome := by
  obtain ⟨calls, h⟩ := Yields.exists_bind ⟨_, ha.yields⟩ fun b => ⟨_, (hf b).yields⟩
  exact h.eq_fresh.1.symm

/-- A last step without calls changes the outcome only. -/
theorem freshOutcome_bind_of_yields {next : β → Except (Fault α) γ} (ha : Transparent a)
    (hf : ∀ b, Yields (f b) (next b) []) : (a >>= f).freshOutcome = a.freshOutcome >>= next := by
  rw [freshOutcome_bind ha fun b => (hf b).transparent]
  exact congrArg (_ >>= ·) (funext fun b => (hf b).eq_fresh.1.symm)

/-! ## Parts of a sequence -/

omit [Memory] in
omit [Scalar α] in
theorem ofExcept_ok_bind (b : β) (f : β → Action α γ) : Action.ofExcept (.ok b) >>= f = f b := rfl

/-- A sequence that succeeds after a computation that does not touch the session. -/
theorem Yields.of_ofExcept_bind {computed : Except (Fault α) β} {c : γ}
    (h : Yields (Action.ofExcept computed >>= f) (.ok c) calls) :
    ∃ b, computed = .ok b ∧ Yields (f b) (.ok c) calls := by
  cases computed with
  | error fault =>
    have hfault : Yields (Action.ofExcept (.error fault) >>= f) (.error fault) [] :=
      Yields.bind_error (Yields.ofExcept _)
    cases (h.unique hfault).1
  | ok b => exact ⟨b, rfl, h⟩

/-- **Parts of a sequence.** If two transparent actions in sequence succeed, both succeed, and the calls are
those of the first followed by those of the second. -/
theorem Yields.of_bind {c : γ} (h : Yields (a >>= f) (.ok c) calls) (ha : Transparent a)
    (hf : ∀ b, Transparent (f b)) :
    ∃ b first rest, Yields a (.ok b) first ∧ Yields (f b) (.ok c) rest ∧ calls = first ++ rest := by
  obtain ⟨outcome, first, ha⟩ := ha
  cases outcome with
  | error fault => cases (h.unique ha.bind_error).1
  | ok b =>
    obtain ⟨outcome, rest, hb⟩ := hf b
    obtain ⟨rfl, rfl⟩ := h.unique (ha.bind hb)
    exact ⟨b, first, rest, ha, hb, rfl⟩

/-- After an action that succeeds without calls, a transparent action yields what the sequence yields. -/
theorem Yields.of_silent_bind {b : β} {result : Except (Fault α) γ} (h : Yields (a >>= f) result calls)
    (ha : Yields a (.ok b) []) (hf : Transparent (f b)) : Yields (f b) result calls := by
  obtain ⟨result', calls', hb⟩ := hf
  obtain ⟨rfl, rfl⟩ := h.unique (ha.silent_bind hb)
  exact hb

/-! ## Confined actions -/

/-- **Confined actions.** On every sound cache the action yields the same, and it calls functions at points
with a property only. -/
def Confined (P : Point α → Prop) (a : Action α β) : Prop :=
  ∃ outcome calls, Yields a outcome calls ∧ ∀ p ∈ calls, P p

namespace Confined

variable {P Q : Point α → Prop}

theorem transparent (h : Confined P a) : Transparent a := by
  obtain ⟨outcome, calls, hyields, -⟩ := h
  exact hyields.transparent

theorem forall_mem (h : Confined P a) (ha : Yields a outcome calls) : ∀ p ∈ calls, P p := by
  obtain ⟨outcome', calls', hyields, hcalls⟩ := h
  obtain ⟨-, rfl⟩ := ha.unique hyields
  exact hcalls

/-- An action that is confined to no point makes no calls. -/
theorem eq_nil (h : Confined (fun _ => False) a) (ha : Yields a outcome calls) : calls = [] :=
  List.eq_nil_iff_forall_not_mem.mpr fun p hp => h.forall_mem ha p hp

theorem silent (h : Yields a outcome []) : Confined P a :=
  ⟨outcome, [], h, List.forall_mem_nil P⟩

theorem ofExcept (computed : Except (Fault α) β) : Confined P (Action.ofExcept computed) :=
  silent (Yields.ofExcept computed)

theorem pure (b : β) : Confined P (Pure.pure b : Action α β) := silent (Yields.pure b)

theorem note (entry : Entry α) : Confined P (Action.note entry) := silent (Yields.note entry)

theorem recordCall {p : Point α} (h : P p) : Confined P (Action.recordCall p) :=
  ⟨_, _, Yields.recordCall p, List.forall_mem_singleton.mpr h⟩

/-- **Sequence.** Confined actions in sequence are confined. -/
theorem bind (ha : Confined P a) (hf : ∀ b, Confined P (f b)) : Confined P (a >>= f) := by
  obtain ⟨outcome, calls, ha, hcalls⟩ := ha
  cases outcome with
  | error fault => exact ⟨_, calls, ha.bind_error, hcalls⟩
  | ok b =>
    obtain ⟨outcome, further, hb, hfurther⟩ := hf b
    exact ⟨outcome, calls ++ further, ha.bind hb, List.forall_mem_append.mpr ⟨hcalls, hfurther⟩⟩

theorem ite {c : Prop} [Decidable c] {a' : Action α β} (ha : Confined P a) (ha' : Confined P a') :
    Confined P (if c then a else a') := by
  split
  · exact ha
  · exact ha'

theorem attempt (ha : Confined P a) :
    Confined P (ExceptT.mk do return .ok (← a.run) : Action α (Except (Fault α) β)) := by
  obtain ⟨outcome, calls, ha, hcalls⟩ := ha
  exact ⟨_, calls, ha.attempt, hcalls⟩

/-- A list of actions. -/
theorem mapM {task : τ → Action α β} (h : ∀ t, Confined P (task t)) (tasks : List τ) :
    Confined P (tasks.mapM task) := by
  induction tasks with
  | nil => exact pure []
  | cons t tasks ih =>
    rw [List.mapM_cons]
    exact bind (h t) fun b => bind ih fun bs => pure (b :: bs)

end Confined

end FiniteDifference.Action
