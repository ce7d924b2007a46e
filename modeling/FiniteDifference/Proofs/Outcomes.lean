import Mathlib.Data.List.Forall2

/-!
# Outcomes of computations

A computation succeeds with a result or has a fault.  Computations in sequence and along a list succeed if
all of them do, and otherwise have the first fault; a worker that carries the tasks of a list out in order
stops there.
-/

namespace FiniteDifference

variable {β γ δ ε τ : Type}

/-! ## Computations that succeed -/

/-- Two computations in sequence succeed if both do. -/
theorem bind_eq_ok {outcome : Except ε β} {f : β → Except ε γ} {c : γ} :
    outcome >>= f = .ok c ↔ ∃ b, outcome = .ok b ∧ f b = .ok c := by
  cases outcome with
  | error fault =>
    constructor
    · intro h
      cases h
    · rintro ⟨b, h, -⟩
      cases h
  | ok b =>
    constructor
    · intro h
      exact ⟨b, rfl, h⟩
    · rintro ⟨b', hb, h⟩
      cases hb
      exact h

/-- A list of computations succeeds if each one does. -/
theorem mapM_eq_ok {f : β → Except ε γ} {bs : List β} {cs : List γ} :
    bs.mapM f = .ok cs ↔ List.Forall₂ (fun b c => f b = .ok c) bs cs := by
  induction bs generalizing cs with
  | nil =>
    rw [List.mapM_nil, List.forall₂_nil_left_iff]
    constructor
    · intro h
      cases h
      rfl
    · rintro rfl
      rfl
  | cons b bs ih =>
    rw [List.mapM_cons, bind_eq_ok, List.forall₂_cons_left_iff]
    constructor
    · rintro ⟨c, hc, hrest⟩
      obtain ⟨cs', hcs', heq⟩ := bind_eq_ok.mp hrest
      cases heq
      exact ⟨c, cs', hc, ih.mp hcs', rfl⟩
    · rintro ⟨c, cs', hc, hrest, rfl⟩
      exact ⟨c, hc, bind_eq_ok.mpr ⟨cs', ih.mpr hrest, rfl⟩⟩

/-- If a list of computations succeeds, so does each one. -/
theorem exists_ok_of_mapM {f : β → Except ε γ} {bs : List β} {cs : List γ} (h : bs.mapM f = .ok cs) :
    ∀ b ∈ bs, ∃ c, f b = .ok c := by
  intro b hb
  obtain ⟨i, hi, rfl⟩ := List.mem_iff_getElem.mp hb
  have hall := mapM_eq_ok.mp h
  exact ⟨_, hall.get hi (hall.length_eq ▸ hi)⟩

/-- A changed result is that of a computation that succeeds. -/
theorem map_eq_ok {outcome : Except ε β} {g : β → γ} {c : γ} :
    outcome.map g = .ok c ↔ ∃ b, outcome = .ok b ∧ g b = c := by
  cases outcome with
  | error fault =>
    constructor
    · intro h
      cases h
    · rintro ⟨b, h, -⟩
      cases h
  | ok b =>
    constructor
    · intro h
      exact ⟨b, rfl, Except.ok.inj h⟩
    · rintro ⟨b', h, rfl⟩
      cases h
      rfl

theorem mapM_ok_congr {f g : β → Except ε γ} (h : ∀ b c, f b = .ok c ↔ g b = .ok c) {bs : List β}
    {cs : List γ} : bs.mapM f = .ok cs ↔ bs.mapM g = .ok cs := by
  rw [mapM_eq_ok, mapM_eq_ok]
  simp only [h]

/-- Two passes over a list succeed if a single pass with both computations does, although faults are found in
a different order. -/
theorem mapM_bind_eq_ok {f : β → Except ε γ} {g : γ → Except ε δ} {bs : List β} {ds : List δ} :
    bs.mapM f >>= (·.mapM g) = .ok ds ↔ (bs.mapM fun b => f b >>= g) = .ok ds := by
  simp only [bind_eq_ok, mapM_eq_ok]
  induction bs generalizing ds with
  | nil => simp only [List.forall₂_nil_left_iff, exists_eq_left]
  | cons b bs ih =>
    simp only [List.forall₂_cons_left_iff]
    constructor
    · rintro ⟨_, ⟨c, cs, hc, hcs, rfl⟩, hds⟩
      obtain ⟨d, ds', hd, hds', rfl⟩ := List.forall₂_cons_left_iff.mp hds
      exact ⟨d, ds', ⟨c, hc, hd⟩, ih.mp ⟨cs, hcs, hds'⟩, rfl⟩
    · rintro ⟨d, ds', ⟨c, hc, hd⟩, hds', rfl⟩
      obtain ⟨cs, hcs, hds⟩ := ih.mpr hds'
      exact ⟨c :: cs, ⟨c, cs, hc, hcs, rfl⟩, .cons hd hds⟩

/-! ## First faults -/

/-- The tasks that a single worker carries out: those up to the first one that fails. -/
def untilFault (outcome : τ → Except ε β) : List τ → List τ
  | [] => []
  | t :: ts =>
    t :: match outcome t with
      | .ok _ => untilFault outcome ts
      | .error _ => []

/-- Results that are changed one by one are changed in the list. -/
theorem mapM_map_outcome (outcome : τ → Except ε β) (φ : β → γ) (ts : List τ) :
    (ts.mapM fun t => (outcome t).map φ) = (ts.mapM outcome).map (·.map φ) := by
  induction ts with
  | nil => rfl
  | cons t ts ih =>
    rw [List.mapM_cons, List.mapM_cons, ih]
    cases outcome t with
    | error fault => rfl
    | ok b =>
      cases ts.mapM outcome with
      | error fault => rfl
      | ok bs => rfl

/-- Changing the results changes nothing about the faults. -/
theorem untilFault_map (outcome : τ → Except ε β) (φ : β → γ) (ts : List τ) :
    untilFault (fun t => (outcome t).map φ) ts = untilFault outcome ts := by
  induction ts with
  | nil => rfl
  | cons t ts ih =>
    rw [untilFault, untilFault, ih]
    cases outcome t with
    | error fault => rfl
    | ok b => rfl

/-- If no task fails, all of them are carried out. -/
theorem untilFault_of_forall_ok {outcome : τ → Except ε β} {ts : List τ}
    (h : ∀ t ∈ ts, ∃ b, outcome t = .ok b) : untilFault outcome ts = ts := by
  induction ts with
  | nil => rfl
  | cons t ts ih =>
    rw [List.forall_mem_cons] at h
    obtain ⟨b, hb⟩ := h.1
    rw [untilFault, hb]
    exact congrArg (t :: ·) (ih h.2)

/-- The first task that fails is the last one that is carried out. -/
theorem untilFault_append_cons {outcome : τ → Except ε β} {before : List τ} {t : τ} {fault : ε}
    (hbefore : ∀ t ∈ before, ∃ b, outcome t = .ok b) (hfault : outcome t = .error fault)
    (after : List τ) : untilFault outcome (before ++ t :: after) = before ++ [t] := by
  induction before with
  | nil => rw [List.nil_append, untilFault, hfault, List.nil_append]
  | cons t' before ih =>
    rw [List.forall_mem_cons] at hbefore
    obtain ⟨b, hb⟩ := hbefore.1
    rw [List.cons_append, untilFault, hb]
    exact congrArg (t' :: ·) (ih hbefore.2)

/-- The fault of the first task that fails is the fault of the list. -/
theorem mapM_append_cons_eq_error {outcome : τ → Except ε β} {before : List τ} {t : τ} {fault : ε}
    (hbefore : ∀ t ∈ before, ∃ b, outcome t = .ok b) (hfault : outcome t = .error fault)
    (after : List τ) : (before ++ t :: after).mapM outcome = .error fault := by
  induction before with
  | nil =>
    rw [List.nil_append, List.mapM_cons, hfault]
    rfl
  | cons t' before ih =>
    rw [List.forall_mem_cons] at hbefore
    obtain ⟨b, hb⟩ := hbefore.1
    rw [List.cons_append, List.mapM_cons, hb, ih hbefore.2]
    rfl

/-- Two computations in sequence fail if the first one does, or the second one after it. -/
theorem bind_eq_error {outcome : Except ε β} {f : β → Except ε γ} {fault : ε} :
    outcome >>= f = .error fault ↔
      outcome = .error fault ∨ ∃ b, outcome = .ok b ∧ f b = .error fault := by
  cases outcome with
  | error other =>
    constructor
    · intro h
      cases h
      exact .inl rfl
    · rintro (h | ⟨b, h, -⟩)
      · cases h
        rfl
      · cases h
  | ok b =>
    constructor
    · intro h
      exact .inr ⟨b, rfl, h⟩
    · rintro (h | ⟨b', hb, h⟩)
      · cases h
      · cases hb
        exact h

theorem map_eq_error {outcome : Except ε β} {g : β → γ} {fault : ε} :
    outcome.map g = .error fault ↔ outcome = .error fault := by
  cases outcome with
  | error other => exact ⟨fun h => congrArg _ (Except.error.inj h), fun h => congrArg _ (Except.error.inj h)⟩
  | ok b => exact ⟨nofun, nofun⟩

/-- **First faults.** The fault of a list is that of the first task that fails. -/
theorem mapM_eq_error_iff {outcome : τ → Except ε β} {ts : List τ} {fault : ε} :
    ts.mapM outcome = .error fault ↔ ∃ before t after, ts = before ++ t :: after ∧
      (∀ t' ∈ before, ∃ b, outcome t' = .ok b) ∧ outcome t = .error fault := by
  constructor
  · intro h
    induction ts with
    | nil => cases h
    | cons t ts ih =>
      rw [List.mapM_cons] at h
      rcases bind_eq_error.mp h with hfault | ⟨b, hb, hrest⟩
      · exact ⟨[], t, ts, rfl, List.forall_mem_nil _, hfault⟩
      · rcases bind_eq_error.mp hrest with hfault | ⟨bs, -, hpure⟩
        · obtain ⟨before, t', after, rfl, hbefore, hfault⟩ := ih hfault
          exact ⟨t :: before, t', after, rfl, List.forall_mem_cons.mpr ⟨⟨b, hb⟩, hbefore⟩, hfault⟩
        · cases hpure
  · rintro ⟨before, t, after, rfl, hbefore, hfault⟩
    exact mapM_append_cons_eq_error hbefore hfault after

end FiniteDifference
