import TransformStack.Proofs.Edit.Transaction

/-!
# Attributes that edits avoid

Some names are never written to: no attribute of such a name is made, changed or removed, on any
entity. Transactions avoid them if the ops that they add and the values that they author go by other
names, and so does what takes such writes back, wherever that stops.
-/

namespace TransformStack

/-! ## Stores -/

/-- The attributes of the given names are the same in both stores, and missing in both where they
are missing in one. -/
def Store.SameAt (names : String → Prop) (before after : Store) : Prop :=
  ∀ id name, names name → after.find? id name = before.find? id name

namespace Store.SameAt

variable {names : String → Prop} {before mid s s' : Store} {id : EntityId} {name : String}

theorem refl (s : Store) : s.SameAt names s := fun _ _ _ => rfl

theorem trans (h : before.SameAt names mid) (h' : mid.SameAt names s) : before.SameAt names s :=
  fun id name hname => (h' id name hname).trans (h id name hname)

/-- Attributes of other names may be changed. -/
theorem alter (h : before.SameAt names s) (hname : ¬names name)
    (change : Option Attribute → Option Attribute) :
    before.SameAt names (s.alter id name change) := by
  intro id' name' hname'
  rw [find?_alter, if_neg]
  · exact h id' name' hname'
  · rintro ⟨-, rfl, -⟩
    exact hname hname'

/-- Adding an op changes the order and the attribute of the op only. -/
theorem addOp (h : before.SameAt names s) (horder : ¬names Op.orderName) {op : Op}
    (hop : ¬names op.attributeName) (hadd : s.addOp id op = .ok (some s')) :
    before.SameAt names s' := by
  obtain ⟨-, -, -, -, -, -, -, rfl⟩ := addOp_eq_ok_iff.1 hadd
  exact (h.alter hop _).alter horder _

/-- Setting the order changes its attribute only. -/
theorem setOrder (h : before.SameAt names s) (horder : ¬names Op.orderName) {order : OpOrder}
    (hset : s.setOrder id order = .ok (some s')) : before.SameAt names s' := by
  obtain ⟨-, -, -, rfl⟩ := setOrder_eq_ok_iff.1 hset
  exact h.alter horder _

/-- Authoring a value changes one attribute only. -/
theorem setValue (h : before.SameAt names s) (hname : ¬names name) {value : Value}
    {time : TimeCode} (hset : s.setValue id name value time = .ok (some s')) :
    before.SameAt names s' := by
  obtain ⟨-, -, -, -, -, -, -, rfl⟩ := setValue_eq_ok_iff.1 hset
  exact h.alter hname _

end Store.SameAt

/-! ## Edits -/

/-- The write that the edit takes back went to an attribute of another name. -/
def Edit.Avoids (names : String → Prop) (edit : Edit) : Prop := ¬names edit.name

namespace Edit

variable {names : String → Prop} {before s s' : Store} {id : EntityId} {name : String}
  {time : TimeCode} {edit : Edit}

/-- What is noted before a write is of the attribute that is written to. -/
theorem avoids_of_before (h : Edit.before s id name time = .ok edit) (hname : ¬names name) :
    edit.Avoids names := by
  rcases before_eq_ok_iff.1 h with ⟨-, rfl⟩ | ⟨-, -, -, -, -, -, rfl⟩ <;> exact hname

/-- Reverting a write to an attribute of another name changes none of the given names. -/
theorem Avoids.revert (h : edit.Avoids names) (hsame : before.SameAt names s)
    (hrevert : edit.revert s = .ok (some s')) : before.SameAt names s' := by
  obtain ⟨change, rfl⟩ := edit.exists_alter_of_revert hrevert
  exact hsame.alter h change

end Edit

/-! ## Transactions -/

namespace Transaction

variable {names : String → Prop} {before : Store} {id : EntityId} {tx : Transaction}

/-- All that a transaction wrote goes by other names, and so does what takes it back. -/
structure Avoids (names : String → Prop) (before : Store) (tx : Transaction) : Prop where
  store : before.SameAt names tx.store
  journal : ∀ edit ∈ tx.journal, edit.Avoids names

namespace Avoids

/-- A transaction starts without a write. -/
theorem start {s : Session} (h : before.SameAt names s.store) : (start s).Avoids names before :=
  ⟨h, fun _ hedit => nomatch hedit⟩

/-- Adding an op of another name avoids the given names. -/
theorem addOp (h : tx.Avoids names before) (horder : ¬names Op.orderName) {op : Op}
    (hop : ¬names op.attributeName) : (tx.addOp id op).2.Avoids names before := by
  have hcreated : (Edit.created id op.attributeName).Avoids names := hop
  obtain ⟨hstore, hjournal⟩ := addOp_notes h.store h.journal
    (fun _ hbefore => Edit.avoids_of_before hbefore horder) (fun _ => hcreated)
    fun _ => h.store.addOp horder hop
  exact ⟨hstore, hjournal⟩

/-- Setting the order avoids the given names if it is not one of them. -/
theorem setOrder (h : tx.Avoids names before) (horder : ¬names Op.orderName) (order : OpOrder) :
    (tx.setOrder id order).2.Avoids names before := by
  obtain ⟨hstore, hjournal⟩ := setOrder_notes h.store h.journal
    (fun _ hbefore => Edit.avoids_of_before hbefore horder) fun _ => h.store.setOrder horder
  exact ⟨hstore, hjournal⟩

/-- Authoring a value under another name avoids the given names. -/
theorem setValue (h : tx.Avoids names before) {name : String} (hname : ¬names name) (value : Value)
    (time : TimeCode) : (tx.setValue id name value time).2.Avoids names before := by
  have hchanged (previous : Option Value) :
      (Edit.changed id name time previous).Avoids names := hname
  obtain ⟨hstore, hjournal⟩ :=
    setValue_notes h.store h.journal (fun previous _ => hchanged previous) fun _ =>
      h.store.setValue hname
  exact ⟨hstore, hjournal⟩

/-- Rolling back avoids what the transaction avoided, also where it fails. -/
theorem rollback (h : tx.Avoids names before) : before.SameAt names tx.rollback.store :=
  rollback_keeps (fun _ _ _ hedit hsame => hedit.revert hsame) h.store h.journal

end Avoids

end Transaction

end TransformStack
