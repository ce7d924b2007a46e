import FiniteDifference.Proofs.Coefficients.Solvable

/-!
# Tallies

A tally is what remains of a cache and of its journal when the stored coefficients and the order of the
entries are forgotten.  Lookups are steps of tallies: which lookups are hits, which stencils are stored and
what is reported depends on nothing else.  Any two lookups commute, although who pays a miss and who gets a
hit depends on their order.
-/

namespace FiniteDifference

/-- **Tallies.** The stencils with stored exact coefficients, those with stored scalars, those reported to
be generated, and the numbers of hits and misses. -/
structure Tally where
  stored : Multiset Descriptor
  rounded : Multiset Descriptor
  noted : Multiset Descriptor
  hits : ℕ
  misses : ℕ

namespace Tally

/-! ## Steps -/

/-- Counts a lookup that was answered. -/
def hit (t : Tally) : Tally := { t with hits := t.hits + 1 }

/-- Counts a lookup that was not answered and reports that its coefficients are generated. -/
def miss (d : Descriptor) (t : Tally) : Tally :=
  { t with noted := d ::ₘ t.noted, misses := t.misses + 1 }

variable [Memory]

/-- The stencils with one more, if its coefficients can be generated. -/
def insertSolvable (d : Descriptor) (stencils : Multiset Descriptor) : Multiset Descriptor :=
  if d.Solvable then stencils.ndinsert d else stencils

/-- Stores the exact coefficients of a stencil if they can be generated. -/
def store (d : Descriptor) (t : Tally) : Tally := { t with stored := insertSolvable d t.stored }

/-- Stores the scalar coefficients of a stencil if they can be generated. -/
def round (d : Descriptor) (t : Tally) : Tally := { t with rounded := insertSolvable d t.rounded }

/-- An exact lookup, whose coefficients are generated by a step if they are not stored. -/
def lookup (d : Descriptor) (generate : Tally → Tally) (t : Tally) : Tally :=
  if d ∈ t.stored then t.hit else (generate (t.miss d)).store d

/-- An exact lookup for a stencil. -/
def axis (s : Stencil) : Tally → Tally := lookup (.axis s) id

/-- Exact lookups for a list of stencils. -/
def axes (stencils : List Stencil) (t : Tally) : Tally := stencils.foldl (fun t s => t.axis s) t

/-- An exact lookup for a tensor stencil, which looks up its axes. -/
def tensor (t : Tensor) : Tally → Tally := lookup (.tensor t) (axes (visitedAxes t.axes))

/-- An exact lookup for a stencil of either kind. -/
def exact : Descriptor → Tally → Tally
  | .axis s => axis s
  | .tensor t => tensor t

/-- A lookup of scalar coefficients. -/
def scalars (d : Descriptor) (t : Tally) : Tally :=
  if d ∈ t.rounded then t else (t.exact d).round d

/-- **Lookups.** For exact or for scalar coefficients. -/
inductive Lookup where
  | exact (d : Descriptor)
  | scalars (d : Descriptor)

/-- The tally after a lookup. -/
def enter (t : Tally) : Lookup → Tally
  | .exact d => t.exact d
  | .scalars d => t.scalars d

/-- The tally after lookups one after the other. -/
def enterAll (lookups : List Lookup) (t : Tally) : Tally := lookups.foldl enter t

/-! ## What is stored -/

variable {d e : Descriptor}

/-- Only a solvable stencil is added. -/
theorem mem_insertSolvable {stencils : Multiset Descriptor} :
    e ∈ insertSolvable d stencils ↔ e ∈ stencils ∨ (e = d ∧ d.Solvable) := by
  unfold insertSolvable
  split
  · next h => rw [Multiset.mem_ndinsert, or_comm, and_iff_left h]
  · next h => simp [h]

theorem store_of_not_solvable (h : ¬d.Solvable) (t : Tally) : t.store d = t := by
  rw [store, insertSolvable, if_neg h]

theorem round_of_not_solvable (h : ¬d.Solvable) (t : Tally) : t.round d = t := by
  rw [round, insertSolvable, if_neg h]

/-- After an exact lookup for a stencil it is stored if it is solvable. -/
theorem mem_stored_axis {s : Stencil} (t : Tally) :
    e ∈ (t.axis s).stored ↔ e ∈ t.stored ∨ (e = .axis s ∧ (Descriptor.axis s).Solvable) := by
  unfold axis lookup
  split
  · next h =>
    show e ∈ t.stored ↔ _
    rw [iff_self_or]
    rintro ⟨rfl, -⟩
    exact h
  · exact mem_insertSolvable

/-- After exact lookups for a list of stencils the solvable ones are stored. -/
theorem mem_stored_axes {stencils : List Stencil} (t : Tally) :
    e ∈ (t.axes stencils).stored ↔
      e ∈ t.stored ∨ ∃ s ∈ stencils, e = .axis s ∧ (Descriptor.axis s).Solvable := by
  unfold axes
  induction stencils generalizing t with
  | nil => simp
  | cons s stencils ih =>
    rw [List.foldl_cons, ih, mem_stored_axis]
    simp only [List.mem_cons, exists_eq_or_imp, or_assoc]

/-- An exact lookup leaves the scalars as they are if the generation does. -/
theorem rounded_lookup {generate : Tally → Tally} (h : ∀ t, (generate t).rounded = t.rounded)
    (d : Descriptor) (t : Tally) : (t.lookup d generate).rounded = t.rounded := by
  unfold lookup
  split
  · rfl
  · exact h (t.miss d)

/-- Exact lookups for stencils leave the scalars as they are. -/
theorem rounded_axes (stencils : List Stencil) (t : Tally) :
    (t.axes stencils).rounded = t.rounded := by
  unfold axes
  induction stencils generalizing t with
  | nil => rfl
  | cons s stencils ih =>
    rw [List.foldl_cons, ih]
    exact rounded_lookup (fun _ => rfl) (.axis s) t

/-- Exact lookups leave the scalars as they are. -/
@[simp] theorem rounded_exact (d : Descriptor) (t : Tally) : (t.exact d).rounded = t.rounded := by
  cases d with
  | axis s => exact rounded_lookup (fun _ => rfl) (.axis s) t
  | tensor T => exact rounded_lookup (rounded_axes (visitedAxes T.axes)) (.tensor T) t

/-! ## Basic steps commute -/

open Function (Commute)

/-- **Basic steps.** -/
inductive Basic : (Tally → Tally) → Prop
  | hit : Basic hit
  | miss (d : Descriptor) : Basic (miss d)
  | store (d : Descriptor) : Basic (store d)
  | round (d : Descriptor) : Basic (round d)

/-- The order of two insertions does not matter. -/
theorem insertSolvable_comm (d e : Descriptor) (stencils : Multiset Descriptor) :
    insertSolvable d (insertSolvable e stencils) = insertSolvable e (insertSolvable d stencils) := by
  have hswap : (stencils.ndinsert e).ndinsert d = (stencils.ndinsert d).ndinsert e := by
    induction stencils using Quotient.inductionOn with
    | h l => exact Quotient.sound (List.perm_insert_swap d e l)
  unfold insertSolvable
  split <;> split <;> first | rfl | exact hswap

/-- Basic steps change different parts of a tally, or the same one in either order. -/
theorem Basic.commute {f g : Tally → Tally} (hf : Basic f) (hg : Basic g) : Commute f g := by
  intro t
  cases hf with
  | hit => cases hg <;> rfl
  | miss d =>
    cases hg with
    | miss e => exact congrArg (Tally.mk _ _ · _ _) (Multiset.cons_swap d e t.noted)
    | hit | store | round => rfl
  | store d =>
    cases hg with
    | store e => exact congrArg (Tally.mk · _ _ _ _) (insertSolvable_comm d e t.stored)
    | hit | miss | round => rfl
  | round d =>
    cases hg with
    | round e => exact congrArg (Tally.mk _ · _ _ _) (insertSolvable_comm d e t.rounded)
    | hit | miss | store => rfl

/-! ## Steps apart from a stencil -/

/-- **Steps apart from a stencil.** They do not change whether it is stored, and commute with counting a
lookup of it and with storing it. -/
structure Apart (d : Descriptor) (f : Tally → Tally) : Prop where
  stored : ∀ t, d ∈ (f t).stored ↔ d ∈ t.stored
  hit : Commute f hit
  miss : Commute f (miss d)
  store : Commute f (store d)

/-- A basic step is apart from every stencil that it does not store. -/
theorem Basic.apart {f : Tally → Tally} (hf : Basic f) (h : ∀ t, d ∈ (f t).stored ↔ d ∈ t.stored) :
    Apart d f :=
  ⟨h, hf.commute .hit, hf.commute (.miss d), hf.commute (.store d)⟩

/-- Storing a stencil is apart from every other one. -/
theorem apart_store (hne : d ≠ e) : Apart d (store e) := by
  refine (Basic.store e).apart fun t => mem_insertSolvable.trans ?_
  rw [or_iff_left fun h => hne h.1]

namespace Apart

variable {f generate : Tally → Tally}

theorem id (d : Descriptor) : Apart d id :=
  ⟨fun _ => Iff.rfl, Commute.id_left, Commute.id_left, Commute.id_left⟩

/-- **Lookups of a stencil.** A step apart from it commutes with them if it commutes with the
generation: it does not change which of the two branches is taken. -/
theorem commute_lookup (h : Apart d f) (hgenerate : Commute f generate) :
    Commute f (lookup d generate) := by
  intro t
  unfold lookup
  rw [if_congr (h.stored t) rfl rfl, apply_ite f]
  congr 1
  · exact h.hit t
  · rw [h.store, hgenerate, h.miss]

/-- **Lookups of another stencil.** They are apart from a stencil if the generation is. -/
theorem lookup (hne : d ≠ e) (h : Apart d generate) : Apart d (lookup e generate) where
  stored := by
    intro t
    unfold Tally.lookup
    split
    · exact Iff.rfl
    · exact ((apart_store hne).stored _).trans (h.stored _)
  hit := ((Basic.hit.apart fun _ => Iff.rfl).commute_lookup h.hit.symm).symm
  miss := (((Basic.miss d).apart fun _ => Iff.rfl).commute_lookup h.miss.symm).symm
  store := ((apart_store hne.symm).commute_lookup h.store.symm).symm

end Apart

/-! ## Lookups commute -/

theorem apart_axis {s : Stencil} (hne : d ≠ .axis s) : Apart d (axis s) := (Apart.id d).lookup hne

/-- Lookups for stencils are apart from tensor stencils. -/
theorem apart_axes (T : Tensor) (stencils : List Stencil) : Apart (.tensor T) (axes stencils) := by
  induction stencils with
  | nil => exact Apart.id _
  | cons s stencils ih =>
    have hs : Apart (.tensor T) (axis s) := apart_axis (by simp)
    exact ⟨fun t => (ih.stored _).trans (hs.stored t), ih.hit.comp_left hs.hit,
      ih.miss.comp_left hs.miss, ih.store.comp_left hs.store⟩

/-- What commutes with the lookups for some stencils commutes with all of them in a row. -/
theorem commute_axes {f : Tally → Tally} {stencils : List Stencil}
    (h : ∀ s ∈ stencils, Commute f (axis s)) : Commute f (axes stencils) := by
  induction stencils with
  | nil => exact Commute.id_right
  | cons s stencils ih =>
    rw [List.forall_mem_cons] at h
    exact (ih h.2).comp_right h.1

theorem commute_axis_axis (s s' : Stencil) : Commute (axis s) (axis s') := by
  by_cases h : s' = s
  · rw [h]
  · exact (apart_axis (by simpa using h)).commute_lookup Commute.id_right

/-- Lookups for a stencil and for a tensor stencil commute, also if the one is an axis of the other. -/
theorem commute_axis_tensor (s : Stencil) (T : Tensor) : Commute (axis s) (tensor T) :=
  (apart_axis (by simp)).commute_lookup (commute_axes fun s' _ => commute_axis_axis s s')

/-- Lookups for two tensor stencils commute. -/
theorem commute_tensor_tensor (T T' : Tensor) : Commute (tensor T) (tensor T') := by
  by_cases h : T' = T
  · rw [h]
  · have hapart : Apart (.tensor T') (tensor T) :=
      (apart_axes T' _).lookup (by simpa using h)
    exact hapart.commute_lookup (commute_axes fun s _ => (commute_axis_tensor s T).symm)

/-- Exact lookups commute. -/
theorem commute_exact_exact (d e : Descriptor) : Commute (exact d) (exact e) := by
  cases d with
  | axis s =>
    cases e with
    | axis s' => exact commute_axis_axis s s'
    | tensor T' => exact commute_axis_tensor s T'
  | tensor T =>
    cases e with
    | axis s' => exact (commute_axis_tensor s' T).symm
    | tensor T' => exact commute_tensor_tensor T T'

/-- Storing scalars commutes with exact lookups. -/
theorem commute_round_exact (d e : Descriptor) : Commute (round d) (exact e) := by
  have hapart : ∀ e', Apart e' (round d) := fun e' => (Basic.round d).apart fun _ => Iff.rfl
  have haxis : ∀ s, Commute (round d) (axis s) := fun s =>
    (hapart _).commute_lookup Commute.id_right
  cases e with
  | axis s => exact haxis s
  | tensor T => exact (hapart _).commute_lookup (commute_axes fun s _ => haxis s)

/-- A step that does not change whether there are scalars commutes with a lookup of them if it commutes
with the parts of this lookup. -/
theorem commute_scalars {f : Tally → Tally} (hrounded : ∀ t, d ∈ (f t).rounded ↔ d ∈ t.rounded)
    (hexact : Commute f (exact d)) (hround : Commute f (round d)) : Commute f (scalars d) := by
  intro t
  unfold scalars
  rw [if_congr (hrounded t) rfl rfl, apply_ite f, hround, hexact]

theorem commute_exact_scalars (d e : Descriptor) : Commute (exact d) (scalars e) :=
  commute_scalars (fun t => by rw [rounded_exact]) (commute_exact_exact d e)
    (commute_round_exact e d).symm

/-- Lookups of scalars commute. -/
theorem commute_scalars_scalars (d e : Descriptor) : Commute (scalars d) (scalars e) := by
  by_cases h : e = d
  · rw [h]
  · have hround : ∀ t, e ∈ (round d t).rounded ↔ e ∈ t.rounded := by
      intro t
      refine mem_insertSolvable.trans ?_
      rw [or_iff_left fun he => h he.1]
    have hrounded : ∀ t, e ∈ (scalars d t).rounded ↔ e ∈ t.rounded := by
      intro t
      unfold scalars
      split
      · exact Iff.rfl
      · rw [hround, rounded_exact]
    have hback : ∀ t, d ∈ (round e t).rounded ↔ d ∈ t.rounded := by
      intro t
      refine mem_insertSolvable.trans ?_
      rw [or_iff_left fun hd => h hd.1.symm]
    exact commute_scalars hrounded (commute_exact_scalars e d).symm
      (commute_scalars hback (commute_round_exact e d) ((Basic.round e).commute (.round d))).symm

/-- **Lookups commute.** -/
instance : RightCommutative enter where
  right_comm := by
    intro t a b
    cases a with
    | exact d =>
      cases b with
      | exact e => exact commute_exact_exact e d t
      | scalars e => exact (commute_exact_scalars d e t).symm
    | scalars d =>
      cases b with
      | exact e => exact commute_exact_scalars e d t
      | scalars e => exact commute_scalars_scalars e d t

theorem enterAll_append (lookups further : List Lookup) :
    enterAll (lookups ++ further) = enterAll further ∘ enterAll lookups :=
  funext fun _ => List.foldl_append

/-- **The order of lookups does not matter.** -/
theorem enterAll_perm {lookups lookups' : List Lookup} (h : lookups.Perm lookups') :
    enterAll lookups = enterAll lookups' :=
  funext fun t => h.foldl_eq t

end Tally

end FiniteDifference
