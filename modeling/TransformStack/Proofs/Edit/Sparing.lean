import TransformStack.Proofs.Edit.Transaction

/-!
# Attributes that edits spare

The writes of a transaction go to few attributes of one entity, and so does what takes them back:
all other attributes that were there before stay what they were, whether the transaction is
committed, rolled back or undone later, and wherever that stops. What is created on the way may come
and go.
-/

namespace TransformStack

/-! ## Stores -/

/-- Every attribute of the one store is the same in the other, except for those of an entity under
the given names. -/
def Store.Spares (id : EntityId) (names : List String) (before after : Store) : Prop :=
  ∀ id' name a, before.find? id' name = some a → ¬(id' = id ∧ name ∈ names) →
    after.find? id' name = some a

namespace Store.Spares

variable {before s s' : Store} {id : EntityId} {names : List String} {name : String}

theorem refl (s : Store) : s.Spares id names s := fun _ _ _ ha _ => ha

/-- What was not there at first may be changed. -/
theorem alter (h : before.Spares id names s) (hfree : name ∈ names ∨ before.find? id name = none)
    (change : Option Attribute → Option Attribute) :
    before.Spares id names (s.alter id name change) := by
  intro id' name' a ha hspared
  rw [find?_alter, if_neg]
  · exact h id' name' a ha hspared
  · rintro ⟨rfl, rfl, -⟩
    rcases hfree with hmem | hnone
    · exact hspared ⟨rfl, hmem⟩
    · cases ha.symm.trans hnone

/-- Declaring an attribute does not change one that is there. -/
theorem declare (h : before.Spares id names s) (name : String) (type : ValueType) :
    before.Spares id names (s.declare id name type) := by
  intro id' name' a ha hspared
  rw [Store.declare, find?_alter, h id' name' a ha hspared]
  split <;> rfl

/-- A name under which nothing is any more was given, or nothing was there at first. -/
theorem free (h : before.Spares id names s) (hnone : s.find? id name = none) :
    name ∈ names ∨ before.find? id name = none := by
  by_cases hmem : name ∈ names
  · exact .inl hmem
  · refine .inr ?_
    cases ha : before.find? id name with
    | none => rfl
    | some a => cases hnone.symm.trans (h id name a ha fun hat => hmem hat.2)

end Store.Spares

/-! ## Edits -/

/-- The edit takes back a write to an attribute of the entity under one of the names, or one that
was not there at first. -/
structure Edit.Within (before : Store) (id : EntityId) (names : List String) (edit : Edit) :
    Prop where
  entity : edit.entity = id
  name : edit.name ∈ names ∨ before.find? id edit.name = none

namespace Edit

variable {before s s' : Store} {id : EntityId} {names : List String} {name : String}
  {time : TimeCode} {edit : Edit}

/-- What is noted before a write is of the attribute that is written to. -/
theorem within_of_before (h : Edit.before s id name time = .ok edit) (hname : name ∈ names) :
    edit.Within before id names := by
  rcases before_eq_ok_iff.1 h with ⟨-, rfl⟩ | ⟨-, -, -, -, -, -, rfl⟩ <;> exact ⟨rfl, .inl hname⟩

/-- Reverting an edit spares what making it spared. -/
theorem Within.revert (h : edit.Within before id names) (hspares : before.Spares id names s)
    (hrevert : edit.revert s = .ok (some s')) : before.Spares id names s' := by
  obtain ⟨rfl, hname⟩ := h
  obtain ⟨change, rfl⟩ := edit.exists_alter_of_revert hrevert
  exact hspares.alter hname change

end Edit

/-! ## Transactions -/

namespace Transaction

variable {before : Store} {id : EntityId} {names : List String} {tx : Transaction}

/-- What a transaction wrote goes by the given names or was not there at first, and so does what
takes it back. -/
structure Within (before : Store) (id : EntityId) (names : List String) (tx : Transaction) :
    Prop where
  store : before.Spares id names tx.store
  journal : ∀ edit ∈ tx.journal, edit.Within before id names

/-- A transaction starts without a write. -/
theorem Within.start {s : Session} (h : before.Spares id names s.store) :
    (start s).Within before id names :=
  ⟨h, fun _ hedit => nomatch hedit⟩

/-- Adding an op writes to its attribute, if that was not there, and to the order. -/
theorem Within.addOp (h : tx.Within before id names) (horder : Op.orderName ∈ names) (op : Op) :
    (tx.addOp id op).2.Within before id names := by
  have hwrite : ∀ s, tx.store.addOp id op = .ok (some s) → before.Spares id names s := by
    intro s hadd
    obtain ⟨-, -, -, tokens, -, -, -, rfl⟩ := Store.addOp_eq_ok_iff.1 hadd
    exact (h.store.declare _ _).alter (.inl horder) _
  have hcreated (hnone : tx.store.find? id op.attributeName = none) :
      (Edit.created id op.attributeName).Within before id names :=
    ⟨rfl, h.store.free hnone⟩
  obtain ⟨hstore, hjournal⟩ := addOp_notes h.store h.journal
    (fun _ hbefore => Edit.within_of_before hbefore horder) hcreated hwrite
  exact ⟨hstore, hjournal⟩

/-- Setting the order writes to its attribute only. -/
theorem Within.setOrder (h : tx.Within before id names) (hname : Op.orderName ∈ names)
    (order : OpOrder) : (tx.setOrder id order).2.Within before id names := by
  have hwrite : ∀ s, tx.store.setOrder id order = .ok (some s) → before.Spares id names s := by
    intro s hset
    obtain ⟨-, -, -, rfl⟩ := Store.setOrder_eq_ok_iff.1 hset
    exact h.store.alter (.inl hname) _
  obtain ⟨hstore, hjournal⟩ := setOrder_notes h.store h.journal
    (fun _ hbefore => Edit.within_of_before hbefore hname) hwrite
  exact ⟨hstore, hjournal⟩

/-- Authoring a value writes to its attribute only. -/
theorem Within.setValue (h : tx.Within before id names) {name : String} (hname : name ∈ names)
    (value : Value) (time : TimeCode) :
    (tx.setValue id name value time).2.Within before id names := by
  have hwrite : ∀ s, tx.store.setValue id name value time = .ok (some s) →
      before.Spares id names s := by
    intro s hset
    obtain ⟨-, -, -, -, -, -, -, rfl⟩ := Store.setValue_eq_ok_iff.1 hset
    exact h.store.alter (.inl hname) _
  have hprevious (previous : Option Value) :
      (Edit.changed id name time previous).Within before id names :=
    ⟨rfl, .inl hname⟩
  obtain ⟨hstore, hjournal⟩ :=
    setValue_notes h.store h.journal (fun previous _ => hprevious previous) hwrite
  exact ⟨hstore, hjournal⟩

/-- Rolling back spares what the transaction spared, also where it fails. -/
theorem Within.rollback (h : tx.Within before id names) :
    before.Spares id names tx.rollback.store :=
  rollback_keeps (fun _ _ _ hedit hspares => hedit.revert hspares) h.store h.journal

end Transaction

end TransformStack
