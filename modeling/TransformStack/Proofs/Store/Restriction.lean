import TransformStack.Proofs.Store.Order

/-!
# Stores without the attributes of other entities

What is read of an entity and what is written to it does not depend on the attributes of other
entities. So reads and writes answer the same in a store that has lost the attributes of some
entities, as long as they are about an entity that kept its own.
-/

namespace TransformStack

namespace Store

variable {s : Store} {keep : EntityId → Bool} {id : EntityId} {name : String}

/-- The store with the attributes of some entities only. -/
def only (s : Store) (keep : EntityId → Bool) : Store :=
  { s with entities := s.entities.map fun id e =>
      if keep id then e else { e with attributes := ∅ } }

@[simp] theorem readOnly_only : (s.only keep).readOnly = s.readOnly := rfl

/-- The entities of the restricted store are the same, some without their attributes. -/
theorem entities_only (id : EntityId) :
    (s.only keep).entities[id]? =
      s.entities[id]?.map fun e => if keep id then e else { e with attributes := ∅ } := by
  rw [only, Std.ExtTreeMap.getElem?_map]

/-- Every entity is still there. -/
@[simp] theorem has_only (id : EntityId) : (s.only keep).has id = s.has id := by
  rw [has, has, entities_only, Option.isSome_map]

/-- Entities that are not kept have no attributes. -/
theorem find?_only_of_not (hid : keep id = false) : (s.only keep).find? id name = none := by
  rw [find?, entities_only, hid]
  cases s.entities[id]? with
  | none => rfl
  | some e => simp

/-- A change to an entity shows with its attributes, if they are kept. -/
theorem only_alter_eq (id : EntityId) (name : String)
    (change : Option Attribute → Option Attribute) :
    (s.alter id name change).only keep =
      if keep id then (s.only keep).alter id name change else s.only keep := by
  cases hid : keep id
  all_goals
    simp only [only, alter, Store.mk.injEq, true_and, if_true, Bool.false_eq_true, if_false]
    apply Std.ExtTreeMap.ext_getElem?
    intro id'
    simp only [Std.ExtTreeMap.getElem?_map, Std.ExtTreeMap.getElem?_modify,
      Std.LawfulEqOrd.compare_eq_iff_eq]
    by_cases hsame : id = id'
    · subst hsame
      cases s.entities[id]? <;> simp [hid]
    · simp [hsame]

/-- What is changed of an entity that is not kept is lost with its attributes. -/
theorem only_alter_of_not (hid : keep id = false) (name : String)
    (change : Option Attribute → Option Attribute) :
    (s.alter id name change).only keep = s.only keep := by
  rw [only_alter_eq, hid, if_neg Bool.false_ne_true]

/-! ## Reading -/

section Reading

variable (hid : keep id)

include hid

/-- Entities that are kept are as they were. -/
theorem entities_only_of_keep : (s.only keep).entities[id]? = s.entities[id]? := by
  rw [entities_only, hid]
  exact Option.map_id_apply

/-- Reading a kept entity gives the same in the restricted store. -/
theorem entity_only : (s.only keep).entity id = s.entity id := by
  rw [entity, entity, entities_only_of_keep hid]

theorem find?_only (name : String) : (s.only keep).find? id name = s.find? id name := by
  rw [find?, find?, entities_only_of_keep hid]

theorem record?_only (name : String) : (s.only keep).record? id name = s.record? id name := by
  rw [record?, record?, find?_only hid]

theorem authored?_only (name : String) (time : TimeCode) :
    (s.only keep).authored? id name time = s.authored? id name time := by
  rw [authored?, authored?, find?_only hid]

theorem orderTokens?_only : (s.only keep).orderTokens? id = s.orderTokens? id := by
  rw [orderTokens?, orderTokens?, authored?_only hid]

/-- The order of a kept entity is the same in the restricted store. -/
theorem order_only : (s.only keep).order id = s.order id :=
  order_congr (has_only id) (orderTokens?_only hid) (record?_only hid)

/-! ## Writing -/

/-- A change to an entity that is kept can be made before or after the others lose their
attributes. -/
theorem only_alter (name : String) (change : Option Attribute → Option Attribute) :
    (s.alter id name change).only keep = (s.only keep).alter id name change := by
  rw [only_alter_eq, if_pos hid]

/-- Adding an op to a kept entity and restricting the store can trade places. -/
theorem addOp_only (op : Op) :
    (s.only keep).addOp id op = Option.map (only · keep) <$> s.addOp id op := by
  simp only [addOp, entity_only hid, record?_only hid, orderTokens?_only hid, readOnly_only,
    declare, putTokens, only_alter hid, map_bind, apply_ite (Functor.map _), map_pure,
    Option.map_some, Option.map_none]

theorem setOrder_only (order : OpOrder) :
    (s.only keep).setOrder id order = Option.map (only · keep) <$> s.setOrder id order := by
  simp only [setOrder, entity_only hid, record?_only hid, readOnly_only, putTokens, only_alter hid,
    map_bind, apply_ite (Functor.map _), map_pure, Option.map_some, Option.map_none]

theorem setValue_only (name : String) (value : Value) (time : TimeCode) :
    (s.only keep).setValue id name value time =
      Option.map (only · keep) <$> s.setValue id name value time := by
  simp only [setValue, record?_only hid, readOnly_only, ← only_alter hid]
  cases s.readOnly with
  | true => rfl
  | false =>
    rcases s.record? id name with e | none | found
    · rfl
    · rfl
    · cases value.type? with
      | none => rfl
      | some actual =>
        simp only [bind, Except.bind]
        by_cases hother : actual ≠ found.type
        · simp only [if_pos hother]
          rfl
        · simp only [if_neg hother]
          by_cases htimeless : time.time?.any (·.isNaN)
          · simp only [if_pos htimeless]
            rfl
          · simp only [if_neg htimeless]
            rfl

theorem clearValue_only (name : String) (time : TimeCode) :
    (s.only keep).clearValue id name time =
      Option.map (only · keep) <$> s.clearValue id name time := by
  simp only [clearValue, record?_only hid, readOnly_only, ← only_alter hid]
  cases s.readOnly with
  | true => rfl
  | false => rcases s.record? id name with e | none | found <;> rfl

theorem removeAttribute_only (name : String) :
    (s.only keep).removeAttribute id name = (s.removeAttribute id name).map (only · keep) := by
  simp only [removeAttribute, find?_only hid, readOnly_only, ← only_alter hid]
  cases s.find? id name <;> cases s.readOnly <;> rfl

end Reading

end Store

end TransformStack
