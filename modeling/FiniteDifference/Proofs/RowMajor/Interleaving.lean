import FiniteDifference.Proofs.RowMajor.Order
import FiniteDifference.Stencil.Indexing

/-!
# Interleaved traversals

Several traversals of one index space, started and advanced in any order.  What an advance yields is
decided by the number of earlier advances of the same traversal alone: the state of all traversals
after a history is the list of their cursors, each at the position that this number gives.
-/

namespace FiniteDifference.RowMajor

/-! ## What a step points at -/

/-- The traversal that a step advances when so many have been started, none for a step that starts a
new one.  An index that points at no traversal is the error. -/
def target (started : ℕ) : Step → Except Int (Option ℕ)
  | .new => .ok none
  | .advance i =>
    match place? started i with
    | some k => .ok (some k)
    | none => .error i

/-- The number of traversals started after one more step. -/
def startedAfter (started : ℕ) : Option ℕ → ℕ
  | none => started + 1
  | some _ => started

/-- The traversals that the steps of a sequence advance, one by one. -/
def targets : ℕ → List Step → Except Int (List (Option ℕ))
  | _, [] => .ok []
  | started, s :: steps => do
    let t ← target started s
    return t :: (← targets (startedAfter started t) steps)

/-! ## What a step is answered -/

/-- **The answer by number alone.** What the step numbered `j` among those with the same target is
answered: a new traversal gets the number `j`, and a traversal yields the digits of `j` with `j` as
long as `j` is below the product of the lengths, and the end from then on. -/
def reply (lengths : List ℕ) : Option ℕ → ℕ → Answer
  | none, j => .started j
  | some _, j => if j < lengths.prod then .pair (digits lengths j) j else .stop

/-- The answers to steps with given targets, each by the number of earlier steps with the same
target. -/
def replies (lengths : List ℕ) (ts : List (Option ℕ)) : List Answer :=
  ts.mapIdx fun p t => reply lengths t ((ts.take p).count t)

/-- The answers to further steps after a history of targets. -/
def repliesAfter (lengths : List ℕ) (before ts : List (Option ℕ)) : List Answer :=
  ts.mapIdx fun p t => reply lengths t ((before ++ ts.take p).count t)

/-- The first answer is by the history, the others are by the history with the first step. -/
theorem repliesAfter_cons (lengths : List ℕ) (before : List (Option ℕ)) (t : Option ℕ)
    (ts : List (Option ℕ)) :
    repliesAfter lengths before (t :: ts)
      = reply lengths t (before.count t) :: repliesAfter lengths (before ++ [t]) ts := by
  unfold repliesAfter
  rw [List.mapIdx_cons]
  simp only [List.take_zero, List.append_nil, List.take_succ_cons, List.append_assoc,
    List.singleton_append]

/-! ## The state after a history -/

/-- A history in which only traversals that have been started are advanced. -/
def Started (before : List (Option ℕ)) : Prop :=
  ∀ k, some k ∈ before → k < before.count none

/-- The cursors after a history, one for each traversal that has been started.  A cursor stays at the
size once its traversal has ended. -/
def cursorsAfter (lengths : List ℕ) (before : List (Option ℕ)) : List Cursor :=
  (List.range (before.count none)).map fun k =>
    cursorAt lengths (min (before.count (some k)) (size lengths))

theorem length_cursorsAfter (lengths : List ℕ) (before : List (Option ℕ)) :
    (cursorsAfter lengths before).length = before.count none := by
  rw [cursorsAfter, List.length_map, List.length_range]

/-- The number of started traversals after one more step. -/
theorem count_none_append (before : List (Option ℕ)) (t : Option ℕ) :
    (before ++ [t]).count none = startedAfter (before.count none) t := by
  rw [List.count_append]
  cases t with
  | none => rfl
  | some k => rfl

/-- The target of a step is a traversal that has been started. -/
theorem lt_of_target {started k : ℕ} {s : Step} (h : target started s = .ok (some k)) :
    k < started := by
  cases s with
  | new => cases h
  | advance i =>
    rw [target] at h
    split at h
    · next hplace =>
      cases h
      exact lt_of_place? hplace
    · cases h

/-- One more step keeps that only started traversals are advanced. -/
theorem Started.append {before : List (Option ℕ)} (hb : Started before) {s : Step} {t : Option ℕ}
    (ht : target (before.count none) s = .ok t) : Started (before ++ [t]) := by
  intro k hk
  have hle : before.count none ≤ (before ++ [t]).count none := by
    rw [List.count_append]
    omega
  rcases List.mem_append.mp hk with hk | hk
  · exact Nat.lt_of_lt_of_le (hb k hk) hle
  · rw [List.mem_singleton] at hk
    subst hk
    exact Nat.lt_of_lt_of_le (lt_of_target ht) hle

/-! ## One step -/

/-- An advance of a traversal after so many advances of it, also beyond its end. -/
theorem advance_cursorAt_min (lengths : List ℕ) (j : ℕ) :
    advance lengths (cursorAt lengths (min j (size lengths)))
      = (if j < size lengths then some (digits lengths j, j) else none,
          cursorAt lengths (min (j + 1) (size lengths))) := by
  by_cases hj : j < size lengths
  · rw [Nat.min_eq_left (Nat.le_of_lt hj), advance_cursorAt hj, if_pos hj, Nat.min_eq_left hj]
  · have hnow : min j (size lengths) = size lengths := Nat.min_eq_right (by omega)
    have hnext : min (j + 1) (size lengths) = size lengths := Nat.min_eq_right (by omega)
    rw [hnow, hnext, if_neg hj]
    simp only [advance, cursorAt, Nat.lt_irrefl, if_false]

/-- Starting a traversal adds a cursor at its first multi-index. -/
theorem cursorsAfter_new {lengths : List ℕ} (hpos : 0 < size lengths) {before : List (Option ℕ)}
    (hb : Started before) :
    cursorsAfter lengths (before ++ [none]) = cursorsAfter lengths before ++ [start lengths] := by
  have hfresh : before.count (some (before.count none)) = 0 := by
    rw [List.count_eq_zero]
    intro hmem
    exact Nat.lt_irrefl _ (hb _ hmem)
  have hsame : ∀ k, (before ++ [none]).count (some k) = before.count (some k) := by
    intro k
    rw [List.count_append]
    rfl
  have hstart : start lengths = cursorAt lengths (min 0 (size lengths)) := by
    rw [Nat.zero_min, start, cursorAt, if_pos hpos, digits_zero]
  rw [cursorsAfter, cursorsAfter, count_none_append, startedAfter, List.range_succ, List.map_append]
  simp only [hsame, List.map_cons, List.map_nil, hfresh, hstart]

/-- Advancing a traversal moves its own cursor and no other. -/
theorem cursorsAfter_advance (lengths : List ℕ) (before : List (Option ℕ)) (k : ℕ) :
    cursorsAfter lengths (before ++ [some k])
      = (cursorsAfter lengths before).set k
          (cursorAt lengths (min (before.count (some k) + 1) (size lengths))) := by
  apply List.ext_getElem
  · rw [List.length_set, length_cursorsAfter, length_cursorsAfter, count_none_append]
    rfl
  · intro p hp hp'
    rw [List.getElem_set]
    simp only [cursorsAfter, List.getElem_map, List.getElem_range, List.count_append]
    by_cases hkp : k = p
    · subst hkp
      rw [if_pos rfl, List.count_singleton_self]
    · have hne : List.count (some p) [some k] = 0 := by
        rw [List.count_eq_zero, List.mem_singleton]
        intro h
        exact hkp (Option.some.inj h).symm
      rw [if_neg hkp, hne, Nat.add_zero]

/-- **One step.** After a history, a step fails exactly when its target does; otherwise its answer is
by the number of earlier steps with the same target, and it adds its target to the history. -/
theorem step_cursorsAfter {lengths : List ℕ} (hpos : 0 < size lengths) {before : List (Option ℕ)}
    (hb : Started before) (s : Step) :
    step lengths (cursorsAfter lengths before) s
      = (target (before.count none) s).map fun t =>
          (reply lengths t (before.count t), cursorsAfter lengths (before ++ [t])) := by
  cases s with
  | new =>
    rw [target, Except.map, step, length_cursorsAfter, cursorsAfter_new hpos hb]
    rfl
  | advance i =>
    rw [step, target]
    split
    · next hplace =>
      rw [length_cursorsAfter] at hplace
      rw [hplace]
      rfl
    · next k hplace =>
      have hget : (cursorsAfter lengths before).get ⟨k, lt_of_place? hplace⟩
          = cursorAt lengths (min (before.count (some k)) (size lengths)) := by
        simp only [List.get_eq_getElem, cursorsAfter, List.getElem_map, List.getElem_range]
      rw [hget, advance_cursorAt_min]
      rw [length_cursorsAfter] at hplace
      simp only [hplace, Except.map, reply, ← size_eq_prod, cursorsAfter_advance]
      by_cases hj : before.count (some k) < size lengths
      · simp only [if_pos hj]
      · simp only [if_neg hj]

/-! ## Runs -/

/-- **Runs after a history.** They fail exactly when their targets do, and are answered by number. -/
theorem run_cursorsAfter {lengths : List ℕ} (hpos : 0 < size lengths) (steps : List Step)
    {before : List (Option ℕ)} (hb : Started before) :
    run lengths (cursorsAfter lengths before) steps
      = (targets (before.count none) steps).map (repliesAfter lengths before) := by
  induction steps generalizing before with
  | nil => rfl
  | cons s steps ih =>
    rw [run, targets, step_cursorsAfter hpos hb]
    cases ht : target (before.count none) s with
    | error i => rfl
    | ok t =>
      have hrest := ih (hb.append ht)
      rw [count_none_append] at hrest
      show (run lengths (cursorsAfter lengths (before ++ [t])) steps >>= fun answers =>
          Except.ok (reply lengths t (before.count t) :: answers)) = _
      rw [hrest]
      cases hts : targets (startedAfter (before.count none) t) steps with
      | error i => simp [hts, Except.map, bind, Except.bind]
      | ok ts =>
        simp only [hts, Except.map, bind, Except.bind, pure, Except.pure, repliesAfter_cons]

/-! ## Index spaces -/

/-- The lengths of an index space are read off integers. -/
theorem mapM_requireInteger {α : Type} (lengths : List ℕ) :
    (lengths.map fun n : ℕ => (Argument.int n : Argument α)).mapM (Validation.requireInteger · "length")
      = .ok (lengths.map Int.ofNat) := by
  induction lengths with
  | nil => rfl
  | cons n lengths ih =>
    rw [List.map_cons, List.mapM_cons, ih]
    rfl

/-- Positive lengths are accepted as they are. -/
theorem positiveLengths_ofNat {α : Type} {lengths : List ℕ} (hpos : ∀ n ∈ lengths, 0 < n) :
    positiveLengths (lengths.map Int.ofNat) = (.ok lengths : Except (Fault α) (List ℕ)) := by
  induction lengths with
  | nil => rfl
  | cons n lengths ih =>
    obtain ⟨hn, hrest⟩ := List.forall_mem_cons.mp hpos
    have hpositive : ¬Int.ofNat n ≤ 0 := Int.not_le.mpr (Int.natCast_pos.mpr hn)
    rw [List.map_cons, positiveLengths, if_neg hpositive, ih hrest]
    rfl

/-- A non-empty list of positive lengths is accepted. -/
theorem lengthsOfList_ofNat {α : Type} {lengths : List ℕ} (hne : lengths ≠ [])
    (hpos : ∀ n ∈ lengths, 0 < n) :
    lengthsOfList (lengths.map fun n : ℕ => (Argument.int n : Argument α)) = .ok lengths := by
  have hsome : lengths.map Int.ofNat ≠ [] := by
    rw [Ne, List.map_eq_nil_iff]
    exact hne
  rw [lengthsOfList, mapM_requireInteger]
  show (if lengths.map Int.ofNat = [] then _ else positiveLengths (lengths.map Int.ofNat)) = _
  rw [if_neg hsome, positiveLengths_ofNat hpos]

/-- An index space is made of any non-empty list of positive lengths. -/
theorem lengthsOfArguments_ofNat {α : Type} {lengths : List ℕ} (hne : lengths ≠ [])
    (hpos : ∀ n ∈ lengths, 0 < n) :
    lengthsOfArguments (lengths.map fun n : ℕ => (Argument.int n : Argument α)) = .ok lengths := by
  have hlist := lengthsOfList_ofNat (α := α) hne hpos
  -- A single length is not a sequence, so it stands for itself.
  match lengths with
  | [] => exact absurd rfl hne
  | [n] => exact hlist
  | _ :: _ :: _ => exact hlist

/-- **Interleaved traversals.** An index space is made of any non-empty list of positive lengths, and
however its traversals are started and advanced, the advance of a traversal after `j` others of the
same traversal yields the digits of `j` with `j` as long as `j` is below the product of the lengths,
and reports the end from then on.  The digits of these positions are strictly increasing, and they
are the multi-indices within the axes, each at exactly one position. -/
theorem answers_eq_replies {α : Type} {lengths : List ℕ} (hne : lengths ≠ [])
    (hpos : ∀ n ∈ lengths, 0 < n) :
    lengthsOfArguments (lengths.map fun n : ℕ => (Argument.int n : Argument α)) = .ok lengths ∧
      (∀ steps, run lengths [] steps = (targets 0 steps).map (replies lengths)) ∧
      (∀ i j, i < j → j < lengths.prod → digits lengths i < digits lengths j) ∧
      ∀ index, List.Forall₂ (· < ·) index lengths
        ↔ ∃! j, j < lengths.prod ∧ digits lengths j = index := by
  refine ⟨lengthsOfArguments_ofNat hne hpos, ?_, ?_, ?_⟩
  · intro steps
    have hnone : Started [] := fun k hk => absurd hk List.not_mem_nil
    exact run_cursorsAfter (size_pos hpos) steps hnone
  · intro i j hij hj
    rw [← size_eq_prod] at hj
    exact digits_lt_digits hij hj
  · intro index
    rw [← size_eq_prod]
    exact forall₂_iff_existsUnique_digits

/-- Two traversals of a space of one row and two columns, the first advanced beyond its end. -/
theorem run_oneByTwo :
    run [1, 2] [] [.new, .advance 0, .new, .advance 0, .advance 1, .advance 0]
      = .ok [.started 0, .pair [0, 0] 0, .started 1, .pair [0, 1] 1, .pair [0, 0] 0, .stop] := by
  have hne : [1, 2] ≠ [] := by decide
  have hpos : ∀ n ∈ [1, 2], 0 < n := by decide
  have hrun := (answers_eq_replies (α := Unit) hne hpos).2.1
  rw [hrun]
  decide

end FiniteDifference.RowMajor
