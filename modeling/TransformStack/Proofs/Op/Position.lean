import Mathlib.Data.List.Count
import Mathlib.Data.List.Nodup
import TransformStack.Edit.Arrangement
import TransformStack.Proofs.Store.Order

/-!
# Positions of ops

An op stands at one position at most, and the op of a recipe stands at the position of the recipe.
Sorting ops by position lists the positions in order, each as often as ops stand at it.
-/

namespace TransformStack

namespace Position

/-- All positions are listed. -/
theorem mem_all (p : Position) : p ∈ all := by cases p <;> decide

/-- The positions are listed in order. -/
theorem pairwise_all : all.Pairwise (·.rank < ·.rank) := by decide

/-- Companions are so both ways. -/
theorem companion_symm {p q : Position} : p.companion = some q ↔ q.companion = some p := by
  cases p <;> cases q <;> decide

/-- No position is its own companion. -/
theorem ne_of_companion {p q : Position} (h : p.companion = some q) : p ≠ q := by
  rintro rfl
  cases p <;> cases h

/-- The halves of a pivot pair differ in inversion only. -/
theorem companion_spec {p q : Position} (h : p.companion = some q) :
    q.suffix = p.suffix ∧ q.admits = p.admits := by
  cases p <;> cases q <;> first | exact ⟨rfl, rfl⟩ | cases h

/-- No two positions take the same op. -/
theorem isPlaceOf_inj {p q : Position} {op : Op} (hp : p.isPlaceOf op) (hq : q.isPlaceOf op) :
    p = q := by
  obtain ⟨kind, suffix, precision, inverse⟩ := op
  simp only [isPlaceOf, Bool.and_eq_true, beq_iff_eq] at hp hq
  obtain ⟨⟨hpkind, rfl⟩, rfl⟩ := hp
  obtain ⟨⟨hqkind, hsuffix⟩, hinverse⟩ := hq
  cases p <;> cases q <;> simp_all [Position.suffix, isInverse, admits, defaultKind,
    OpKind.isRotation]

/-- An op is at a position exactly if it has the kind, the suffix and the inverse of the
position. -/
theorem ofOp?_eq_some_iff {p : Position} {op : Op} : ofOp? op = some p ↔ p.isPlaceOf op := by
  constructor
  · intro h
    unfold ofOp? at h
    exact List.find?_some (p := fun q : Position => q.isPlaceOf op) h
  · intro h
    cases hfind : ofOp? op with
    | none => exact absurd h (List.find?_eq_none.1 hfind p p.mem_all)
    | some q =>
      unfold ofOp? at hfind
      have hq : q.isPlaceOf op := List.find?_some (p := fun q : Position => q.isPlaceOf op) hfind
      rw [isPlaceOf_inj hq h]

/-- Storing an op does not move it. -/
@[simp] theorem ofOp?_stored (op : Op) : ofOp? op.stored = ofOp? op := rfl

end Position

/-- Something stands at a position if an op of the order has that position. -/
theorem OpOrder.at?_isSome_iff {order : OpOrder} {p : Position} :
    (order.at? p).isSome ↔ ∃ op ∈ order.ops, Position.ofOp? op = some p := by
  simp [OpOrder.at?, List.find?_isSome]

/-! ## The ops of recipes -/

namespace Recipe

/-- The position of a recipe takes the op that the recipe makes. -/
def Fits (recipe : Recipe) : Prop := recipe.position.admits recipe.kind

variable {recipe : Recipe}

/-- The op of a fitting recipe is at the recipe's position. -/
theorem Fits.ofOp? (h : recipe.Fits) :
    Position.ofOp? (recipe.op recipe.position.isInverse) = some recipe.position := by
  rw [Position.ofOp?_eq_some_iff]
  have hsuffix : recipe.position.suffix.filter (· ≠ "") = recipe.position.suffix := by
    cases recipe.position <;> rfl
  simp only [Position.isPlaceOf, Recipe.op, Op.make, Bool.and_eq_true, beq_iff_eq]
  exact ⟨⟨h, hsuffix.symm⟩, trivial⟩

/-- The other half of a pivot pair is made by the same recipe. -/
theorem Fits.ofOp?_companion (h : recipe.Fits) {companion : Position}
    (hcompanion : recipe.position.companion = some companion) :
    Position.ofOp? (recipe.op companion.isInverse) = some companion := by
  obtain ⟨hsuffix, hadmits⟩ := Position.companion_spec hcompanion
  have hother : Recipe.Fits { recipe with position := companion } := by
    rw [Fits, hadmits]
    exact h
  have hop := hother.ofOp?
  rw [Recipe.op, hsuffix] at hop
  exact hop

end Recipe

/-! ## Sorting by position -/

namespace Op

/-- Sorting keeps the ops that have a position. -/
theorem mem_byPosition {op : Op} {ops : List Op} :
    op ∈ byPosition ops ↔ op ∈ ops ∧ ∃ p, Position.ofOp? op = some p := by
  simp [byPosition, Position.mem_all]

/-- The positions at which sorted ops stand are all positions in order, each as often as ops stood
at it. -/
theorem map_byPosition {ops : List Op} {positions : List Position}
    (h : ops.map Position.ofOp? = positions.map some) :
    (byPosition ops).map Position.ofOp? =
      (Position.all.flatMap fun p => List.replicate (positions.count p) p).map some := by
  simp only [byPosition, List.map_flatMap, List.map_replicate]
  congr 1
  funext p
  -- As many ops stand at the position as the position is listed, and they stand nowhere else.
  rw [List.eq_replicate_iff]
  constructor
  · rw [List.length_map, ← List.countP_eq_length_filter]
    have hcount : positions.count p = (positions.map some).count (some p) :=
      (List.count_map_of_injective positions some (fun _ _ => Option.some.inj) p).symm
    rw [hcount, ← h, List.count, List.countP_map]
    congr 1
    funext op
    exact (beq_eq_decide _ _).symm
  · intro position hposition
    obtain ⟨op, hop, rfl⟩ := List.mem_map.1 hposition
    simpa using (List.mem_filter.1 hop).2

/-- Where no two ops stand at one position, sorted ops stand at rising positions. -/
theorem map_byPosition_of_nodup {ops : List Op} {positions : List Position}
    (h : ops.map Position.ofOp? = positions.map some) (hnodup : positions.Nodup) :
    (byPosition ops).map Position.ofOp? = (Position.all.filter (· ∈ positions)).map some := by
  rw [map_byPosition h]
  congr 1
  induction Position.all with
  | nil => rfl
  | cons p all ih =>
    rw [List.flatMap_cons, ih, List.filter_cons]
    by_cases hp : p ∈ positions
    · simp [hp, List.count_eq_one_of_mem hnodup hp]
    · simp [hp, List.count_eq_zero_of_not_mem hp]

/-- Sorting keeps the ops at one position in their order. -/
theorem filter_byPosition (p : Position) (ops : List Op) :
    (byPosition ops).filter (Position.ofOp? · = some p) =
      ops.filter (Position.ofOp? · = some p) := by
  have hturn (q : Position) : (ops.filter (Position.ofOp? · = some q)).filter
      (Position.ofOp? · = some p) =
        if q = p then ops.filter (Position.ofOp? · = some p) else [] := by
    rw [List.filter_filter]
    split
    · next h => simp [h]
    · next h =>
      rw [List.filter_eq_nil_iff]
      intro op _ hop
      simp only [Bool.and_eq_true, decide_eq_true_eq] at hop
      exact h (Option.some.inj (hop.2.symm.trans hop.1))
  simp only [byPosition, List.filter_flatMap, hturn]
  cases p <;> simp [Position.all]

/-- Sorting after each of two additions comes to sorting once after both. -/
theorem byPosition_byPosition_append (ops added : List Op) :
    byPosition (byPosition ops ++ added) = byPosition (ops ++ added) := by
  show Position.all.flatMap _ = Position.all.flatMap _
  simp only [List.filter_append, filter_byPosition]

/-- Additions at different positions can be sorted in in either order. -/
theorem byPosition_append_comm {added added' : List Op}
    (h : ∀ op ∈ added, ∀ op' ∈ added', Position.ofOp? op ≠ Position.ofOp? op') (ops : List Op) :
    byPosition (ops ++ added ++ added') = byPosition (ops ++ added' ++ added) := by
  simp only [byPosition, List.filter_append]
  congr 1
  funext p
  by_cases hp : added.filter (Position.ofOp? · = some p) = []
  · rw [hp, List.append_nil, List.append_nil]
  · -- An op was added at the position first, so none of the other additions stands there.
    have hp' : added'.filter (Position.ofOp? · = some p) = [] := by
      rw [List.filter_eq_nil_iff]
      intro op' hop' hat'
      obtain ⟨op, hop⟩ := List.exists_mem_of_ne_nil _ hp
      obtain ⟨hop, hat⟩ := List.mem_filter.1 hop
      simp only [decide_eq_true_eq] at hat hat'
      exact h op hop op' hop' (hat.trans hat'.symm)
    rw [hp', List.append_nil, List.append_nil]

end Op

end TransformStack
