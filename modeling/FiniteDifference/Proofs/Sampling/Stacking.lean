import FiniteDifference.Proofs.Derivative.WorkerCounts
import FiniteDifference.Sampling.Arithmetic

/-!
# Stacked samples

The values of a function at a list of points are stacked into one array before they are told apart, so its
shape decides whether they are one number each.  If every value is a number, nothing or an array with one axis,
this is right in all cases: nothing but numbers, nothing but arrays with a single entry, or a fault.
-/

open FiniteDifference.Action

namespace FiniteDifference

/-! ## Cells as arguments -/

namespace Cell

variable {α : Type}

/-- A cell is no list, so it has no axes. -/
theorem extentWithin_toArgument (axes : ℕ) (c : Cell α) :
    Argument.extentWithin axes c.toArgument = ⟨[], false⟩ := by
  cases c <;> rfl

theorem leaves_toArgument (c : Cell α) : c.toArgument.leaves = [c.toArgument] := by
  cases c <;> rfl

variable [Scalar α]

/-- **The number of a cell,** missing if it holds nothing. -/
def entryValue (c : Cell α) : α := c.value?.getD Scalar.missing

/-- Cells are converted to their numbers. -/
theorem mapM_toEntry (cells : List (Cell α)) :
    (cells.map toArgument).mapM Argument.toEntry
      = (.ok (cells.map entryValue) : Except (Fault α) (List α)) := by
  induction cells with
  | nil => rfl
  | cons c cells ih =>
    rw [List.map_cons, List.mapM_cons, ih]
    cases c <;> rfl

end Cell

/-! ## Flat samples -/

namespace Sample

/-- **Flat samples.** Numbers, nothing and arrays with at most one axis, which have as many cells as their shape
tells. -/
structure IsFlat (sample : Sample Float) : Prop where
  axes : sample.cells.shape.length ≤ 1
  size : sample.cells.entries.length = RowMajor.size sample.cells.shape

theorem isFlat_absent : (absent : Sample Float).IsFlat := ⟨Nat.zero_le 1, rfl⟩

theorem isFlat_vector (xs : List Float) : (array ⟨[xs.length], xs⟩).IsFlat :=
  ⟨le_rfl, (List.length_map _).trans (Nat.mul_one xs.length).symm⟩

/-- Samples are handed on as the arrays that they are. -/
theorem toArgument_eq_nest (sample : Sample Float) :
    sample.toArgument = Argument.nest sample.cells.shape (sample.cells.entries.map Cell.toArgument) := by
  cases sample with
  | array b =>
    show Argument.ofBlock b = Argument.nest b.shape ((b.entries.map Cell.number).map Cell.toArgument)
    rw [List.map_map]
    rfl
  | _ => rfl

/-- A list that is cut into pieces of size one is nested into itself. -/
theorem nest_singleton (leaves : List (Argument Float)) :
    Argument.nest [leaves.length] leaves = .list leaves := by
  have hslabs : (slabs 1 leaves.length leaves).map (Argument.nest []) = leaves := by
    induction leaves with
    | nil => rfl
    | cons a leaves ih => exact congrArg (a :: ·) ih
  exact congrArg Argument.list hslabs

/-- **Forms of flat samples.** One cell without axes, or a list of cells. -/
theorem IsFlat.cases {sample : Sample Float} (h : sample.IsFlat) :
    (∃ c, sample.cells = ⟨[], [c]⟩ ∧ sample.toArgument = c.toArgument) ∨
      ∃ cells, sample.cells = ⟨[cells.length], cells⟩ ∧
        sample.toArgument = .list (cells.map Cell.toArgument) := by
  rw [toArgument_eq_nest]
  obtain ⟨haxes, hlength⟩ := h
  generalize sample.cells = block at *
  obtain ⟨shape, cells⟩ := block
  match shape, haxes with
  | [], _ =>
    obtain ⟨c, rfl⟩ := List.length_eq_one_iff.mp hlength
    exact .inl ⟨c, rfl, rfl⟩
  | [n], _ =>
    obtain rfl : cells.length = n := hlength.trans (Nat.mul_one n)
    refine .inr ⟨cells, rfl, ?_⟩
    rw [← nest_singleton, List.length_map]

/-- The extent of a flat sample is its shape. -/
theorem IsFlat.extentWithin {sample : Sample Float} (h : sample.IsFlat) (axes : ℕ) :
    Argument.extentWithin (axes + 1) sample.toArgument = ⟨sample.cells.shape, false⟩ := by
  rcases h.cases with ⟨c, hcells, harg⟩ | ⟨cells, hcells, harg⟩
  · rw [hcells, harg, Cell.extentWithin_toArgument]
  · rw [hcells, harg]
    by_cases hne : cells = []
    · rw [hne]
      rfl
    · have hcommon : Argument.commonExtentWithin axes (cells.map Cell.toArgument) = some ⟨[], false⟩ :=
        Argument.commonExtentWithin_of_forall_eq Extent.isFlat_nil
          (mt List.map_eq_nil_iff.mp hne) (List.forall_mem_map.mpr fun c _ => c.extentWithin_toArgument axes)
      rw [Argument.extentWithin_list hcommon, List.length_map]

/-- Its leaves are its cells. -/
theorem IsFlat.leaves {sample : Sample Float} (h : sample.IsFlat) :
    sample.toArgument.leaves = sample.cells.entries.map Cell.toArgument := by
  rcases h.cases with ⟨c, hcells, harg⟩ | ⟨cells, hcells, harg⟩
  · rw [hcells, harg, Cell.leaves_toArgument]
    rfl
  · rw [hcells, harg, Argument.leaves]
    exact Argument.leavesOfAll_eq_self (List.forall_mem_map.mpr fun c _ => c.leaves_toArgument)

/-- The leaves of a list of flat samples are the cells of all of them. -/
theorem leavesOfAll_of_flat {samples : List (Sample Float)} (h : ∀ s ∈ samples, s.IsFlat) :
    Argument.leavesOfAll (samples.map toArgument)
      = (samples.flatMap (·.cells.entries)).map Cell.toArgument := by
  induction samples with
  | nil => rfl
  | cons s samples ih =>
    obtain ⟨hs, hsamples⟩ := List.forall_mem_cons.mp h
    rw [List.map_cons, Argument.leavesOfAll, hs.leaves, ih hsamples, List.flatMap_cons, List.map_append]

/-- **The numbers of a sample.** Nothing counts as the missing number. -/
def numbers (sample : Sample Float) : List Float := sample.cells.entries.map Cell.entryValue

end Sample

/-! ## Gathering -/

namespace Sampling

variable {samples : List (Sample Float)}

/-- **Samples of one shape** are stacked, and gathered if they are single numbers. -/
theorem gather_of_shape (hne : samples ≠ []) (hflat : ∀ s ∈ samples, s.IsFlat) {shape : List ℕ}
    (hshape : ∀ s ∈ samples, s.cells.shape = shape) :
    gather samples
      = if shape = [] ∨ shape = [1] then .ok (samples.flatMap Sample.numbers)
        else .error (.malformed (.notScalar (samples.length :: shape))) := by
  have hextent : (Argument.list (samples.map Sample.toArgument)).extent
      = ⟨samples.length :: shape, false⟩ := by
    rw [Argument.extent_list (e := ⟨shape, false⟩), List.length_map]
    intro axes
    refine Argument.commonExtentWithin_of_forall_eq ?_ (mt List.map_eq_nil_iff.mp hne) ?_
    · obtain ⟨s, hs⟩ := List.exists_mem_of_ne_nil samples hne
      exact ⟨rfl, hshape s hs ▸ (hflat s hs).axes⟩
    · refine List.forall_mem_map.mpr fun s hs => ?_
      rw [(hflat s hs).extentWithin, hshape s hs]
  have hblock : (Argument.list (samples.map Sample.toArgument)).toBlock
      = (.ok ⟨samples.length :: shape, samples.flatMap Sample.numbers⟩ : Except (Fault Float) (Block Float)) := by
    rw [Argument.toBlock, hextent, Argument.leaves, Sample.leavesOfAll_of_flat hflat, Cell.mapM_toEntry,
      List.map_flatMap]
    rfl
  rw [gather, hblock]
  show (if samples.length :: shape = [samples.length] ∨ samples.length :: shape = [samples.length, 1] then _
    else _) = _
  simp only [List.cons.injEq, true_and]
  rfl

/-- **Samples of several shapes** are not stacked. -/
theorem gather_of_shapes_ne (hflat : ∀ s ∈ samples, s.IsFlat) {s t : Sample Float} (hs : s ∈ samples)
    (ht : t ∈ samples) (hne : s.cells.shape ≠ t.cells.shape) :
    gather samples = .error (.malformed (.ragged [samples.length])) := by
  have hextent : (Argument.list (samples.map Sample.toArgument)).extent = ⟨[samples.length], true⟩ := by
    rw [Argument.extent_list (e := ⟨[], true⟩), List.length_map]
    intro axes
    refine Argument.commonExtentWithin_of_ne ?_ (List.mem_map_of_mem hs) (List.mem_map_of_mem ht) ?_
    · refine List.forall_mem_map.mpr fun s hs => ?_
      rw [(hflat s hs).extentWithin]
      exact ⟨rfl, (hflat s hs).axes⟩
    · rw [(hflat s hs).extentWithin, (hflat t ht).extentWithin]
      exact fun h => hne (congrArg Extent.shape h)
  rw [gather, Argument.toBlock, hextent]
  rfl

/-- **Single numbers.** Numbers and nothing throughout, or arrays with a single entry throughout. -/
def AreSingle (samples : List (Sample Float)) : Prop :=
  (∀ s ∈ samples, s.cells.shape = []) ∨ ∀ s ∈ samples, s.cells.shape = [1]

theorem gather_of_areSingle (hne : samples ≠ []) (hflat : ∀ s ∈ samples, s.IsFlat)
    (h : AreSingle samples) : gather samples = .ok (samples.flatMap Sample.numbers) := by
  rcases h with hshape | hshape
  · rw [gather_of_shape hne hflat hshape, if_pos (.inl rfl)]
  · rw [gather_of_shape hne hflat hshape, if_pos (.inr rfl)]

/-- Any others are a fault. -/
theorem exists_malformed_of_not_areSingle (hne : samples ≠ []) (hflat : ∀ s ∈ samples, s.IsFlat)
    (h : ¬AreSingle samples) : ∃ why, gather samples = .error (.malformed why) := by
  obtain ⟨s, hs⟩ := List.exists_mem_of_ne_nil samples hne
  by_cases hshape : ∀ t ∈ samples, t.cells.shape = s.cells.shape
  · rw [gather_of_shape hne hflat hshape, if_neg]
    · exact ⟨_, rfl⟩
    · rintro (hnil | hone)
      · exact h (.inl fun t ht => (hshape t ht).trans hnil)
      · exact h (.inr fun t ht => (hshape t ht).trans hone)
  · push Not at hshape
    obtain ⟨t, ht, hts⟩ := hshape
    exact ⟨_, gather_of_shapes_ne hflat ht hs hts⟩

/-- Each of the single numbers is one number. -/
theorem exists_numbers_eq (hflat : ∀ s ∈ samples, s.IsFlat) (h : AreSingle samples) :
    ∀ s ∈ samples, ∃ y, s.numbers = [y] := by
  intro s hs
  have hsize : RowMajor.size s.cells.shape = 1 := by
    rcases h with hshape | hshape
    · rw [hshape s hs]
      rfl
    · rw [hshape s hs]
      rfl
  rw [← List.length_eq_one_iff, Sample.numbers, List.length_map, (hflat s hs).size, hsize]

/-- Numbers that are gathered keep their order. -/
theorem forall₂_flatMap_numbers (h : ∀ s ∈ samples, ∃ y, s.numbers = [y]) :
    List.Forall₂ (fun s y => s.numbers = [y]) samples (samples.flatMap Sample.numbers) := by
  induction samples with
  | nil => exact .nil
  | cons s samples ih =>
    obtain ⟨⟨y, hy⟩, hsamples⟩ := List.forall_mem_cons.mp h
    rw [List.flatMap_cons, hy]
    exact .cons hy (ih hsamples)

/-! ## Values at any points -/

/-- **Values of a function that does not fail.** The outcome is that of gathering its answers. -/
theorem outcome_valuesAt [Memory] (history : List (Operation Float)) {crew : Crew Float}
    (hcrew : ¬crew.request.IsInfinite) {f : SampledFunction Float} {arguments : List (Argument Float)}
    {points : List (Point Float)} (hpoints : arguments.mapM pointOf = .ok points)
    {samples : List (Sample Float)} (hsamples : points.mapM f.answer = .ok samples) :
    ((valuesAt crew f arguments).perform (Session.after history)).1 = gather samples := by
  obtain ⟨n, hn⟩ := Workers.exists_available crew.machine hcrew
  have hvalues := yields_values_answer f (resolve_of_available hn points.length)
  rw [hsamples] at hvalues
  rw [valuesAt, hpoints]
  exact (Yields.silent_bind (Yields.ofExcept _) hvalues).outcome_after history

/-- **Samples are never misassigned.** If a function gives a number, nothing or an array with one axis at each
of some points, its values there are found if and only if these are numbers and nothing throughout or arrays with
a single entry throughout.  There is one value for each point then, in order: the number, the entry, or the
missing number for nothing.  In all other cases the samples are malformed.  So it is after any history and for any
number of workers, unless infinitely many are requested. -/
theorem valuesAt_of_flat [Memory] (history : List (Operation Float)) {crew : Crew Float}
    (hcrew : ¬crew.request.IsInfinite) {f : SampledFunction Float} {arguments : List (Argument Float)}
    (hne : arguments ≠ []) {points : List (Point Float)} (hpoints : arguments.mapM pointOf = .ok points)
    {samples : List (Sample Float)} (hsamples : points.mapM f.answer = .ok samples)
    (hflat : ∀ s ∈ samples, s.IsFlat) :
    let result := ((valuesAt crew f arguments).perform (Session.after history)).1
    ((∃ ys, result = .ok ys) ↔ AreSingle samples) ∧
      (∀ ys, result = .ok ys →
        ys.length = arguments.length ∧ List.Forall₂ (fun s y => s.numbers = [y]) samples ys) ∧
      (¬AreSingle samples → ∃ fault, result = .error fault ∧ fault.kind = .value) := by
  intro result
  have hresult : result = gather samples := outcome_valuesAt history hcrew hpoints hsamples
  have hlength : samples.length = arguments.length :=
    (mapM_eq_ok.mp hsamples).length_eq.symm.trans (mapM_eq_ok.mp hpoints).length_eq.symm
  have hsome : samples ≠ [] := by
    rw [← List.length_pos_iff, hlength]
    exact List.length_pos_iff.mpr hne
  rw [hresult]
  by_cases h : AreSingle samples
  · have hvalues := forall₂_flatMap_numbers (exists_numbers_eq hflat h)
    rw [gather_of_areSingle hsome hflat h]
    refine ⟨iff_of_true ⟨_, rfl⟩ h, ?_, fun hnot => absurd h hnot⟩
    rintro ys ⟨⟩
    exact ⟨hvalues.length_eq.symm.trans hlength, hvalues⟩
  · obtain ⟨why, hwhy⟩ := exists_malformed_of_not_areSingle hsome hflat h
    rw [hwhy]
    refine ⟨iff_of_false (by rintro ⟨ys, ⟨⟩⟩) h, nofun, fun _ => ⟨_, rfl, rfl⟩⟩

/-- A function that gives an array with a single entry at a number, and nothing elsewhere. -/
def singletonAtNumbers : SampledFunction Float :=
  .rule fun
    | .number x => .ok (.array ⟨[1], [x]⟩)
    | .block _ => .ok .absent

/-- It has values at two numbers, but none at a number and a vector together. -/
theorem valuesAt_singletonAtNumbers :
    letI : Memory := .ample
    (∃ ys, ((valuesAt .single singletonAtNumbers [.real 1, .real 2]).perform
        (Session.after [])).1 = .ok ys) ∧
      ∃ fault, ((valuesAt .single singletonAtNumbers [.real 1, .list [.real 2]]).perform
        (Session.after [])).1 = .error fault ∧ fault.kind = .value := by
  let : Memory := .ample
  have hsingle : ¬(Crew.single : Crew Float).request.IsInfinite := id
  constructor
  · have hpoints : ([.real 1, .real 2] : List (Argument Float)).mapM pointOf
        = .ok [.number 1, .number 2] := rfl
    have hsamples : ([.number 1, .number 2] : List (Point Float)).mapM singletonAtNumbers.answer
        = .ok [.array ⟨[1], [1]⟩, .array ⟨[1], [2]⟩] := rfl
    have hflat : ∀ s ∈ [Sample.array ⟨[1], [(1 : Float)]⟩, .array ⟨[1], [2]⟩], s.IsFlat :=
      List.forall_mem_cons.mpr ⟨Sample.isFlat_vector [1],
        List.forall_mem_singleton.mpr (Sample.isFlat_vector [2])⟩
    have hvalues := valuesAt_of_flat [] hsingle (List.cons_ne_nil _ _) hpoints hsamples hflat
    exact hvalues.1.mpr (.inr (List.forall_mem_cons.mpr ⟨rfl, List.forall_mem_singleton.mpr rfl⟩))
  · have hpoints : ([.real 1, .list [.real 2]] : List (Argument Float)).mapM pointOf
        = .ok [.number 1, .block ⟨[1], [2]⟩] := rfl
    have hsamples : ([.number 1, .block ⟨[1], [2]⟩] : List (Point Float)).mapM singletonAtNumbers.answer
        = .ok [.array ⟨[1], [1]⟩, .absent] := rfl
    have hflat : ∀ s ∈ [Sample.array ⟨[1], [(1 : Float)]⟩, .absent], s.IsFlat :=
      List.forall_mem_cons.mpr ⟨Sample.isFlat_vector [1], List.forall_mem_singleton.mpr Sample.isFlat_absent⟩
    have hvalues := valuesAt_of_flat [] hsingle (List.cons_ne_nil _ _) hpoints hsamples hflat
    exact hvalues.2.2 (by simp [AreSingle, Sample.cells, Block.map, Block.single])

end Sampling

end FiniteDifference
