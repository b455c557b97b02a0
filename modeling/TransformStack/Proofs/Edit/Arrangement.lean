import TransformStack.Proofs.Edit.Transaction
import TransformStack.Proofs.Op.Position

/-!
# What arranging ops does

Asking for an op at a position either finds one, and then nothing is written, or adds what the
recipe lacks and sorts the order. Whatever the single writes of a transaction keep is kept by all of
it, also where it fails halfway.
-/

namespace TransformStack

/-- What a recipe adds to an order that has no op at its position: its op, and the other half of a
pivot pair if the order lacks that too. -/
def Recipe.additions (recipe : Recipe) (order : OpOrder) : List Op :=
  recipe.op recipe.position.isInverse ::
    match recipe.position.companion with
    | none => []
    | some companion =>
      if (order.at? companion).isSome then [] else [recipe.op companion.isInverse]

namespace OpOrder

variable {order : OpOrder} {recipe : Recipe}

/-- The positions at which the additions of a recipe stand: the position of the recipe, and the
other half of the pair if the order lacks it. -/
def lacking (order : OpOrder) (p : Position) : List Position :=
  p :: p.companion.toList.filter fun q => (order.at? q).isNone

/-- What an edit at a position lacks is its own op, and that of the other half of its pair unless
it is there. -/
theorem mem_lacking {p q : Position} :
    q ∈ order.lacking p ↔ q = p ∨ p.companion = some q ∧ order.at? q = none := by
  simp [lacking]

/-- The additions of a recipe stand at the lacking positions. -/
theorem map_additions (hfits : recipe.Fits) (order : OpOrder) :
    ((recipe.additions order).map Op.stored).map Position.ofOp? =
      (order.lacking recipe.position).map some := by
  have hop : Position.ofOp? (recipe.op recipe.position.isInverse).stored = some recipe.position :=
    hfits.ofOp?
  rw [Recipe.additions, lacking, List.map_cons, List.map_cons, List.map_cons, hop]
  cases hcompanion : recipe.position.companion with
  | none => rfl
  | some q =>
    have hother : Position.ofOp? (recipe.op q.isInverse).stored = some q :=
      hfits.ofOp?_companion hcompanion
    cases hat : order.at? q <;> simp [hat, hother]

/-- The additions of a recipe stand at positions that an order lacks. -/
theorem ofOp?_of_mem_additions (hfits : recipe.Fits) {op : Op}
    (hop : op ∈ (recipe.additions order).map Op.stored) :
    ∃ p ∈ order.lacking recipe.position, Position.ofOp? op = some p := by
  have hmem := List.mem_map_of_mem (f := Position.ofOp?) hop
  rw [map_additions hfits] at hmem
  obtain ⟨p, hp, hop⟩ := List.mem_map.1 hmem
  exact ⟨p, hp, hop.symm⟩

/-- Where each op of an order has a position, so has each addition of a recipe to it. -/
theorem exists_ofOp?_of_additions (hfits : recipe.Fits)
    (hplaced : ∀ op ∈ order.ops, ∃ p, Position.ofOp? op = some p) :
    ∀ op ∈ order.ops ++ (recipe.additions order).map Op.stored,
      ∃ p, Position.ofOp? op = some p := by
  intro op hop
  rcases List.mem_append.1 hop with hold | hnew
  · exact hplaced op hold
  · obtain ⟨p, -, hp⟩ := ofOp?_of_mem_additions hfits hnew
    exact ⟨p, hp⟩

/-- An order has no foreign op if all of its ops have positions. -/
theorem find?_foreign_eq_none_iff : order.ops.find? (Position.ofOp? · = none) = none ↔
    ∀ op ∈ order.ops, ∃ p, Position.ofOp? op = some p := by
  simp [List.find?_eq_none, Option.ne_none_iff_exists']

end OpOrder

namespace Arrangement

variable {tx tx' : Transaction} {id : EntityId} {recipe : Recipe}

/-- Adding an op requires the store to take it. -/
theorem add_eq (id : EntityId) (recipe : Recipe) (inverse : Bool) :
    add id recipe inverse =
      (Steps.tell (·.addOp id (recipe.op inverse)) >>=
        Steps.require (.addRefused recipe.position recipe.kind id)) >>=
          fun _ => pure (recipe.op inverse) := by
  simp [add]

/-- There is no other half to add, or it is one more op. -/
theorem addCompanion_cases (id : EntityId) (recipe : Recipe) (order : OpOrder) :
    (recipe.additions order = [recipe.op recipe.position.isInverse] ∧
      addCompanion id recipe order = pure ()) ∨
    ∃ companion, recipe.position.companion = some companion ∧ order.at? companion = none ∧
      recipe.additions order =
        [recipe.op recipe.position.isInverse, recipe.op companion.isInverse] ∧
      addCompanion id recipe order =
        add id recipe companion.isInverse >>= fun _ => pure () := by
  unfold addCompanion Recipe.additions
  cases recipe.position.companion with
  | none => exact .inl ⟨rfl, rfl⟩
  | some companion =>
    dsimp only
    cases hat : order.at? companion with
    | some op => exact .inl ⟨rfl, rfl⟩
    | none => exact .inr ⟨companion, rfl, hat, rfl, rfl⟩

/-! ## What it keeps -/

section Keeps

variable {P : Transaction → Prop}
  (hadd : ∀ tx inverse, P tx → P (tx.addOp id (recipe.op inverse)).2)

include hadd

/-- What adding ops keeps is kept by adding the op of a recipe. -/
theorem add_keeps (inverse : Bool) : (add id recipe inverse).Keeps P := by
  rw [add_eq]
  refine .bind (.bind (.tell fun tx => hadd tx _) fun _ => .require _ _) fun _ => .pure _

/-- What adding ops keeps is kept by adding the other half of a pair. -/
theorem addCompanion_keeps (order : OpOrder) : (addCompanion id recipe order).Keeps P := by
  unfold addCompanion
  split
  · exact .pure ()
  · split
    · exact .pure ()
    · exact .bind (add_keeps hadd _) fun _ => .pure _

variable (hsort : ∀ tx order, P tx → tx.store.order id = .ok order →
  (∀ op ∈ order.ops, ∃ p, Position.ofOp? op = some p) →
  P (tx.setOrder id { order with ops := Op.byPosition order.ops }).2)

include hsort

omit hadd in
/-- What setting the sorted order keeps is kept by sorting. -/
theorem sort_keeps : (sort id).Keeps P := by
  unfold sort
  refine .ask_bind fun tx order htx horder => ?_
  split
  · exact htx
  · next hforeign =>
    rw [Steps.tell_require_on_snd]
    exact hsort tx order htx horder (OpOrder.find?_foreign_eq_none_iff.1 hforeign)

/-- What adding ops of the recipe and sorting orders keep is kept by asking for an op. -/
theorem ensure_keeps : (ensure id recipe).Keeps P := by
  unfold ensure
  refine .bind (.ask _) fun order => ?_
  split
  · exact .pure _
  · refine .bind (add_keeps hadd _) fun op => ?_
    refine .bind (addCompanion_keeps hadd order) fun _ => ?_
    exact .bind (sort_keeps hsort) fun _ => .pure _

end Keeps

/-! ## What it needs of a layer -/

/-- Adding an op goes through in spite of refusals as it does without them. -/
theorem add_unhindered (inverse : Bool) : (add id recipe inverse).Unhindered := by
  rw [add_eq]
  exact .bind (.tell_require (fun _ _ _ hfree hadd => hfree.addOp hadd) _) fun _ => .pure _

/-- Adding the other half of a pair goes through in spite of refusals as it does without them. -/
theorem addCompanion_unhindered (order : OpOrder) : (addCompanion id recipe order).Unhindered := by
  unfold addCompanion
  split
  · exact .pure ()
  · split
    · exact .pure ()
    · exact .bind (add_unhindered _) fun _ => .pure _

/-- Sorting goes through in spite of refusals as it does without them. -/
theorem sort_unhindered : (sort id).Unhindered := by
  unfold sort
  refine .bind (.ask _) fun order => ?_
  split
  · exact .throw _
  · exact .tell_require (fun _ _ _ hfree hset => hfree.setOrder hset) _

/-- Refusals can keep a layer from making an op, but cannot change which op it makes. -/
theorem ensure_unhindered : (ensure id recipe).Unhindered := by
  unfold ensure
  refine .bind (.ask _) fun order => ?_
  split
  · exact .pure _
  · refine .bind (add_unhindered _) fun op => ?_
    refine .bind (addCompanion_unhindered order) fun _ => ?_
    exact .bind sort_unhindered fun _ => .pure _

/-! ## Success -/

/-- The op of a recipe is added where the store takes it. -/
theorem add_eq_ok_iff {inverse : Bool} {op : Op} :
    (add id recipe inverse).on tx = (.ok op, tx') ↔
      op = recipe.op inverse ∧ tx.addOp id (recipe.op inverse) = (.ok true, tx') := by
  rw [add_eq, Steps.bind_eq_ok_iff]
  constructor
  · rintro ⟨u, mid, htell, hpure⟩
    cases hpure
    exact ⟨rfl, Steps.tell_require_eq_ok_iff.1 htell⟩
  · rintro ⟨rfl, hadd⟩
    exact ⟨(), tx', Steps.tell_require_eq_ok_iff.2 hadd, rfl⟩

/-- Where adding succeeds, the added op reads at the end of the order. -/
theorem order_of_add {inverse : Bool} {op : Op} {order : OpOrder}
    (horder : tx.store.order id = .ok order)
    (hadd : (add id recipe inverse).on tx = (.ok op, tx')) :
    op = recipe.op inverse ∧
      tx'.store.order id = .ok { order with ops := order.ops ++ [op.stored] } := by
  obtain ⟨rfl, htaken⟩ := add_eq_ok_iff.1 hadd
  obtain ⟨-, edits, s, -, hstore, rfl⟩ := Transaction.addOp_eq_ok_iff.1 htaken
  exact ⟨rfl, Store.order_addOp horder hstore⟩

/-- Where adding what a recipe lacks succeeds, the additions read at the end of the order. -/
theorem order_of_additions {op : Op} {u : Unit} {mid : Transaction} {order : OpOrder}
    (horder : tx.store.order id = .ok order)
    (hadd : (add id recipe recipe.position.isInverse).on tx = (.ok op, mid))
    (hcompanion : (addCompanion id recipe order).on mid = (.ok u, tx')) :
    op = recipe.op recipe.position.isInverse ∧
      tx'.store.order id =
        .ok { order with ops := order.ops ++ (recipe.additions order).map Op.stored } := by
  obtain ⟨rfl, hmid⟩ := order_of_add horder hadd
  refine ⟨rfl, ?_⟩
  -- The other half is looked for in the order as it was before the first half was added.
  rcases addCompanion_cases id recipe order with ⟨hadditions, hnone⟩ | ⟨q, -, -, hadditions, hsome⟩
  · rw [hnone] at hcompanion
    cases hcompanion
    rw [hadditions]
    exact hmid
  · rw [hsome] at hcompanion
    obtain ⟨other, last, hother, hpure⟩ := Steps.bind_eq_ok_iff.1 hcompanion
    cases hpure
    obtain ⟨rfl, hlast⟩ := order_of_add hmid hother
    rw [hadditions, hlast, List.append_assoc]
    rfl

/-- Sorting succeeds where all ops have a position and the sorted order is taken. -/
theorem sort_eq_ok_iff {order : OpOrder} (horder : tx.store.order id = .ok order) :
    (sort id).on tx = (.ok (), tx') ↔
      (∀ op ∈ order.ops, ∃ p, Position.ofOp? op = some p) ∧
        tx.setOrder id { order with ops := Op.byPosition order.ops } = (.ok true, tx') := by
  have hask : (Steps.ask (·.order id)).on tx = (.ok order, tx) :=
    Steps.ask_eq_ok_iff.2 ⟨horder, rfl⟩
  rw [sort, Steps.bind_on, hask, ← OpOrder.find?_foreign_eq_none_iff]
  dsimp only
  cases hforeign : order.ops.find? (Position.ofOp? · = none) with
  | some op =>
    refine iff_of_false (fun h => ?_) fun h => ?_
    · cases h
    · cases h.1
  | none => exact Steps.tell_require_eq_ok_iff.trans (and_iff_right rfl).symm

/-- Where sorting succeeds, all ops have a position and read in the order of their positions. -/
theorem order_of_sort {u : Unit} {order : OpOrder} (horder : tx.store.order id = .ok order)
    (hsort : (sort id).on tx = (.ok u, tx')) :
    (∀ op ∈ order.ops, ∃ p, Position.ofOp? op = some p) ∧
      tx'.store.order id = .ok { order with ops := Op.byPosition order.ops } := by
  obtain ⟨hplaced, htaken⟩ := (sort_eq_ok_iff horder).1 hsort
  obtain ⟨-, edit, s, -, hset, rfl⟩ := Transaction.setOrder_eq_ok_iff.1 htaken
  refine ⟨hplaced, Store.order_setOrder (fun op hop => ?_) hset⟩
  exact Store.backs_of_order horder op (Op.mem_byPosition.1 hop).1

/-- Asking for an op that is missing succeeds where adding what the recipe lacks and sorting do. -/
theorem ensure_eq_ok_iff_of_missing {op : Op} {order : OpOrder}
    (horder : tx.store.order id = .ok order) (hmissing : order.at? recipe.position = none) :
    (ensure id recipe).on tx = (.ok op, tx') ↔ ∃ mid last,
      (add id recipe recipe.position.isInverse).on tx = (.ok op, mid) ∧
        (addCompanion id recipe order).on mid = (.ok (), last) ∧
          (sort id).on last = (.ok (), tx') := by
  have hask : (Steps.ask (·.order id)).on tx = (.ok order, tx) :=
    Steps.ask_eq_ok_iff.2 ⟨horder, rfl⟩
  rw [ensure, Steps.bind_on, hask]
  dsimp only
  rw [hmissing]
  constructor
  · intro h
    obtain ⟨op', mid, hadd, hrest⟩ := Steps.bind_eq_ok_iff.1 h
    obtain ⟨u, last, hcompanion, hrest⟩ := Steps.bind_eq_ok_iff.1 hrest
    obtain ⟨u', after, hsort, hpure⟩ := Steps.bind_eq_ok_iff.1 hrest
    cases hpure
    exact ⟨mid, last, hadd, hcompanion, hsort⟩
  · rintro ⟨mid, last, hadd, hcompanion, hsort⟩
    exact Steps.bind_eq_ok_iff.2 ⟨op, mid, hadd, Steps.bind_eq_ok_iff.2 ⟨(), last, hcompanion,
      Steps.bind_eq_ok_iff.2 ⟨(), tx', hsort, rfl⟩⟩⟩

/-- Asking for an op succeeds in two ways: the op is in the order, and nothing is written; or it is
not, and the additions of the recipe are sorted into the order. -/
theorem ensure_eq_ok {op : Op} (h : (ensure id recipe).on tx = (.ok op, tx')) :
    ∃ order, tx.store.order id = .ok order ∧
      (order.at? recipe.position = some op ∧ tx' = tx ∨
        order.at? recipe.position = none ∧ op = recipe.op recipe.position.isInverse ∧
          (∀ op ∈ order.ops, ∃ p, Position.ofOp? op = some p) ∧
          tx'.store.order id = .ok { order with
            ops := Op.byPosition (order.ops ++ (recipe.additions order).map Op.stored) }) := by
  obtain ⟨order, mid, hask, hrest⟩ := Steps.bind_eq_ok_iff.1 h
  obtain ⟨horder, rfl⟩ := Steps.ask_eq_ok_iff.1 hask
  refine ⟨order, horder, ?_⟩
  split at hrest
  · next hfound =>
    cases hrest
    exact .inl ⟨hfound, rfl⟩
  · next hmissing =>
    obtain ⟨mid, last, hadd, hcompanion, hsort⟩ :=
      (ensure_eq_ok_iff_of_missing horder hmissing).1 h
    obtain ⟨rfl, horder₂⟩ := order_of_additions horder hadd hcompanion
    obtain ⟨hplaced, horder₃⟩ := order_of_sort horder₂ hsort
    exact .inr ⟨hmissing, rfl, fun op hop => hplaced op (List.mem_append_left _ hop), horder₃⟩

end Arrangement

end TransformStack
