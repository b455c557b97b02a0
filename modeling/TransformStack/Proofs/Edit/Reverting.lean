import TransformStack.Edit.Transaction
import TransformStack.Proofs.Store.Typing

/-!
# Journals that take writes back

A journal takes a store back to another if reverting its edits, the newest first, goes from the one
to the other. The journals of consecutive writes join. What a write notes before it is made takes
exactly this write back, as long as the attribute held a value of its type.
-/

namespace TransformStack

/-- A cell that can be read holds a value or nothing. -/
theorem Cell.read?_eq_ok_iff {cell : Option Cell} {value : Option Value} :
    Cell.read? cell = .ok value ↔ cell = value.map .value := by
  rcases cell with - | v | - <;> cases value <;> simp [read?, read, Functor.map, Except.map]

/-! ## One edit -/

namespace Edit

variable {s s' : Store} {id : EntityId} {name : String} {time : TimeCode} {edit : Edit}

/-- Before a write of an attribute that is not there, the creation is noted; otherwise what is
authored is. -/
theorem before_eq_ok_iff :
    before s id name time = .ok edit ↔
      (s.find? id name = none ∧ edit = .created id name) ∨
        ∃ a type previous, s.find? id name = some a ∧ a.declared = .known type ∧
          a.cell? time = Option.map .value previous ∧ edit = .changed id name time previous := by
  unfold before
  constructor
  · intro h
    obtain ⟨record, hrecord, h⟩ := bind_eq_ok_iff.1 h
    cases record with
    | none =>
      rw [pure_eq_ok_iff] at h
      exact .inl ⟨Store.record?_eq_none_iff.1 hrecord, h.symm⟩
    | some record =>
      obtain ⟨a, ha, hdeclared, -⟩ := Store.record?_eq_some_iff.1 hrecord
      obtain ⟨previous, hprevious, h⟩ := bind_eq_ok_iff.1 h
      rw [pure_eq_ok_iff] at h
      rw [Store.authored?, ha, Cell.read?_eq_ok_iff] at hprevious
      exact .inr ⟨a, _, previous, ha, hdeclared, hprevious, h.symm⟩
  · rintro (⟨hnone, rfl⟩ | ⟨a, type, previous, ha, hdeclared, hprevious, rfl⟩)
    · rw [bind_eq_ok_iff]
      exact ⟨none, Store.record?_eq_none_iff.2 hnone, rfl⟩
    · have hrecord : s.record? id name = .ok (some ⟨type, a.locked⟩) :=
        Store.record?_eq_some_iff.2 ⟨a, ha, hdeclared, rfl⟩
      have hauthored : s.authored? id name time = .ok previous := by
        rw [Store.authored?, ha, Cell.read?_eq_ok_iff]
        exact hprevious
      rw [bind_eq_ok_iff]
      refine ⟨_, hrecord, ?_⟩
      simp [hauthored, bind, Except.bind, pure, Except.pure]

/-- Where a creation is taken back, the attribute is removed. -/
theorem eq_alter_of_revert_created (h : (created id name).revert s = .ok (some s')) :
    s' = s.alter id name fun _ => none :=
  (Store.removeAttribute_eq_some_iff.1 (Except.ok.inj h)).2.2

/-- Where a change is taken back, the attribute holds what was authored before it. -/
theorem eq_alter_of_revert_changed {previous : Option Value}
    (h : (changed id name time previous).revert s = .ok (some s')) :
    s' = s.alter id name (·.map (·.setCell (previous.map .value) time)) := by
  cases previous with
  | none =>
    obtain ⟨-, -, -, -, -, hs'⟩ := Store.clearValue_eq_ok_iff.1 h
    exact hs'
  | some value =>
    obtain ⟨-, -, -, -, -, -, -, hs'⟩ := Store.setValue_eq_ok_iff.1 h
    exact hs'

/-- Reverting an edit changes the attribute that was written to. -/
theorem exists_alter_of_revert (edit : Edit) (h : edit.revert s = .ok (some s')) :
    ∃ change, s' = s.alter edit.entity edit.name change := by
  cases edit with
  | created id name => exact ⟨_, eq_alter_of_revert_created h⟩
  | changed id name time previous => exact ⟨_, eq_alter_of_revert_changed h⟩

/-- A created attribute is removed again. -/
theorem revert_created (writable : s.readOnly = false) (hhas : s.has id)
    (hnone : s.find? id name = none) (change : Option Attribute → Option Attribute)
    (hsome : (change none).isSome) :
    (created id name).revert (s.alter id name change) = .ok (some s) := by
  have hfind : (s.alter id name change).find? id name = change none := by
    rw [Store.find?_alter, if_pos ⟨rfl, rfl, hhas⟩, hnone]
  obtain ⟨a, ha⟩ := Option.isSome_iff_exists.1 hsome
  simp only [revert, Store.removeAttribute, Store.readOnly_alter, writable, hfind, ha,
    Bool.false_eq_true, if_false, Option.map_some, Store.alter_alter]
  rw [Store.alter_of_eq s id name _ hnone.symm]

/-- A store is as it was once an attribute holds again what it held. -/
theorem alter_setCell_back {a : Attribute} {cell : Option Cell} {previous : Option Value}
    (ha : s.find? id name = some a) (hprevious : a.cell? time = Option.map .value previous)
    {change : Option Attribute → Option Attribute}
    (hchange : change (some a) = some (a.setCell cell time)) :
    (s.alter id name change).alter id name
      (·.map (·.setCell (Option.map .value previous) time)) = s := by
  rw [Store.alter_alter]
  refine Store.alter_of_eq s id name _ ?_
  rw [ha, hchange, Option.map_some, Attribute.setCell_setCell, ← hprevious,
    Attribute.setCell_cell?]

/-- What was authored is put back. -/
theorem revert_changed {a : Attribute} {type : ValueType} {cell : Option Cell}
    {previous : Option Value} (writable : s.readOnly = false) (ha : s.find? id name = some a)
    (hdeclared : a.declared = .known type) (htime : time.time?.any (·.isNaN) = false)
    (hprevious : a.cell? time = Option.map .value previous)
    (hfits : ∀ cell, a.cell? time = some cell → cell.Fits a.declared)
    (change : Option Attribute → Option Attribute)
    (hchange : change (some a) = some (a.setCell cell time)) :
    (changed id name time previous).revert (s.alter id name change) = .ok (some s) := by
  have hfind : (s.alter id name change).find? id name = some (a.setCell cell time) := by
    rw [Store.find?_alter, if_pos ⟨rfl, rfl, Store.has_of_find? ha⟩, ha, hchange]
  have hback := alter_setCell_back ha hprevious hchange
  cases previous with
  | none =>
    refine Store.clearValue_eq_ok_iff.2
      ⟨writable, a.setCell cell time, type, hfind, ?_, hback.symm⟩
    rw [Attribute.declared_setCell, hdeclared]
  | some value =>
    obtain ⟨value', type', hvalue, htype, hdeclared'⟩ := hfits (.value value) hprevious
    obtain rfl := Cell.value.inj hvalue
    refine Store.setValue_eq_ok_iff.2
      ⟨writable, a.setCell cell time, type', hfind, ?_, htype, htime, hback.symm⟩
    rw [Attribute.declared_setCell, hdeclared']

/-- What was noted before a write to an attribute takes the write back. -/
theorem before_revert (hbefore : before s id name time = .ok edit)
    (writable : s.readOnly = false) (hhas : s.has id) (htime : time.time?.any (·.isNaN) = false)
    (hfits : ∀ a cell, s.find? id name = some a → a.cell? time = some cell →
      cell.Fits a.declared)
    {change : Option Attribute → Option Attribute} {cell : Option Cell}
    (hcreated : (change none).isSome)
    (hchange : ∀ a, change (some a) = some (a.setCell cell time)) :
    edit.revert (s.alter id name change) = .ok (some s) := by
  rcases before_eq_ok_iff.1 hbefore with
    ⟨hnone, rfl⟩ | ⟨a, type, previous, ha, hdeclared, hprevious, rfl⟩
  · exact revert_created writable hhas hnone change hcreated
  · exact revert_changed writable ha hdeclared htime hprevious
      (fun cell => hfits a cell ha) change (hchange a)

/-- What will take back the addition of an op, as long as it has not been made. -/
def beforeAdding (s : Store) (id : EntityId) (op : Op) : Except StoreError Journal := do
  let order ← before s id Op.orderName .default
  match ← s.record? id op.attributeName with
  | some _ => return [order]
  | none => return [order, .created id op.attributeName]

/-- What takes an added op back is noted of the order, and of the attribute if it is missing. -/
theorem beforeAdding_eq_ok_iff {op : Op} {edits : Journal} :
    beforeAdding s id op = .ok edits ↔
      ∃ order record, before s id Op.orderName .default = .ok order ∧
        s.record? id op.attributeName = .ok record ∧
        edits = order :: if record.isSome then [] else [.created id op.attributeName] := by
  simp only [beforeAdding, bind_eq_ok_iff]
  refine exists_congr fun order => ?_
  constructor
  · rintro ⟨horder, record, hrecord, h⟩
    refine ⟨record, horder, hrecord, ?_⟩
    cases record <;> exact (pure_eq_ok_iff.1 h).symm
  · rintro ⟨record, horder, hrecord, rfl⟩
    refine ⟨horder, record, hrecord, ?_⟩
    cases record <;> rfl

end Edit

/-! ## Journals -/

/-- Reverting the edits of a journal, the newest first, takes one store back to another. -/
def Journal.TakesBack : Journal → Store → Store → Prop
  | [], after, before => after = before
  | edit :: older, after, before =>
    ∃ s, edit.revert after = .ok (some s) ∧ TakesBack older s before

namespace Journal

variable {newer older : Journal} {after s before : Store}

/-- The journals of two runs of writes, one after the other, take both back. -/
theorem TakesBack.append (hnewer : TakesBack newer after s) (holder : TakesBack older s before) :
    TakesBack (newer ++ older) after before := by
  induction newer generalizing after with
  | nil =>
    obtain rfl : after = s := hnewer
    exact holder
  | cons edit newer ih =>
    obtain ⟨s', hrevert, hnewer⟩ := hnewer
    exact ⟨s', hrevert, ih hnewer⟩

/-- A journal that is reverted to its end has nothing left to take back. -/
theorem eq_nil_of_revert {journal left : Journal} {session last : Session}
    (h : journal.revert session = ((.ok (), left), last)) : left = [] := by
  induction journal generalizing session with
  | nil =>
    cases h
    rfl
  | cons edit older ih =>
    unfold Journal.revert at h
    split at h
    · exact ih h
    · cases h
    · cases h

/-- Reverting a journal keeps what reverting each of its edits keeps, wherever it stops, and leaves
edits of the journal. -/
theorem revert_keeps {Q : Store → Prop} {E : Edit → Prop}
    (hrevert : ∀ edit s s', E edit → Q s → edit.revert s = .ok (some s') → Q s')
    {journal : Journal} {session : Session} (hjournal : ∀ edit ∈ journal, E edit)
    (hstore : Q session.store) :
    Q (journal.revert session).2.store ∧ ∀ edit ∈ (journal.revert session).1.2, E edit := by
  induction journal generalizing session with
  | nil => exact ⟨hstore, hjournal⟩
  | cons edit older ih =>
    obtain ⟨hedit, holder⟩ := List.forall_mem_cons.1 hjournal
    unfold Journal.revert
    cases hreverted : edit.revert session.store with
    | error e => exact ⟨hstore, hjournal⟩
    | ok reverted =>
      cases reverted with
      | none => exact ⟨hstore, hjournal⟩
      | some s => exact ih holder (hrevert edit _ s hedit hstore hreverted)

/-- What reverting comes to depends on the store: refusals do not touch it, and stay. -/
theorem revert_congr (journal : Journal) {s s' : Session} (hstore : s.store = s'.store) :
    (journal.revert s).1 = (journal.revert s').1 ∧
      (journal.revert s).2.layer = { s.layer with store := (journal.revert s').2.store } := by
  induction journal generalizing s s' with
  | nil =>
    refine ⟨rfl, ?_⟩
    show s.layer = { s.layer with store := s'.store }
    rw [← hstore]
    rfl
  | cons edit older ih =>
    have hself : s.layer = { s.layer with store := s'.store } := by
      rw [← hstore]
      rfl
    cases hrevert : edit.revert s'.store with
    | error e =>
      simp only [Journal.revert, hstore, hrevert, Layer.onStore]
      exact ⟨rfl, hself⟩
    | ok reverted =>
      cases reverted with
      | none =>
        simp only [Journal.revert, hstore, hrevert, Layer.onStore]
        exact ⟨rfl, hself⟩
      | some after =>
        -- Both go on from the same store, and reverting asks nothing else of them.
        simp only [Journal.revert, hstore, hrevert, Layer.onStore]
        exact ih rfl

/-- Reverting a journal goes on to what is older once it has taken back what is newer. -/
theorem TakesBack.revert_append {session : Session} (h : newer.TakesBack session.store before)
    (older : Journal) : ∃ s, (newer ++ older).revert session = older.revert s ∧
      s.layer = { session.layer with store := before } := by
  -- Each edit that is reverted leaves a session of its own for the older ones.
  induction newer generalizing session with
  | nil =>
    obtain rfl : session.store = before := h
    exact ⟨session, rfl, rfl⟩
  | cons edit newer ih =>
    obtain ⟨s', hrevert, hnewer⟩ := h
    have hstore : session.layer.onStore (edit.revert session.store) =
        .ok (some { session.layer with store := s' }) := by
      rw [hrevert]
      rfl
    simp only [List.cons_append, Journal.revert, hstore]
    have hrest : TakesBack newer (session.wrote edit.entity { session.layer with
      store := s' }).store before := hnewer
    exact ih hrest

/-- Reverting a journal goes through to the store that it takes back to, and leaves the refusals of
the layer. -/
theorem TakesBack.revert {journal : Journal} {session : Session}
    (h : journal.TakesBack session.store before) :
    (journal.revert session).1 = (.ok (), []) ∧
      (journal.revert session).2.layer = { session.layer with store := before } := by
  obtain ⟨s, hrevert, hlayer⟩ := h.revert_append []
  rw [List.append_nil] at hrevert
  rw [hrevert]
  exact ⟨rfl, hlayer⟩

end Journal

/-! ## The writes of a store -/

namespace Store

variable {s s' : Store} {id : EntityId} {edit : Edit}

/-- A value is taken back if what was there has the type of its attribute. -/
theorem setValue_takesBack {name : String} {time : TimeCode} (htyped : s.ValueTyped id name time)
    {value : Value} {previous : Option Value}
    (hprevious : s.authored? id name time = .ok previous)
    (hset : s.setValue id name value time = .ok (some s')) :
    Journal.TakesBack [.changed id name time previous] s' s := by
  obtain ⟨writable, a, type, ha, hdeclared, -, htime, rfl⟩ := setValue_eq_ok_iff.1 hset
  rw [authored?, ha, Cell.read?_eq_ok_iff] at hprevious
  exact ⟨s, Edit.revert_changed writable ha hdeclared htime hprevious (htyped a ha) _ rfl, rfl⟩

/-- What was noted of the order takes it back after tokens were put into it. -/
theorem putTokens_revert (htyped : s.OrderTyped id) (writable : s.readOnly = false)
    (hhas : s.has id) (hbefore : Edit.before s id Op.orderName .default = .ok edit)
    (tokens : List String) : edit.revert (s.putTokens id tokens) = .ok (some s) := by
  refine Edit.before_revert hbefore writable hhas rfl ?_ rfl fun a => rfl
  intro a cell ha hcell
  exact (htyped a ha).2 cell hcell

/-- What was noted of a typed order takes back the setting of another. -/
theorem setOrder_takesBack (htyped : s.OrderTyped id) {order : OpOrder}
    (hbefore : Edit.before s id Op.orderName .default = .ok edit)
    (hset : s.setOrder id order = .ok (some s')) : Journal.TakesBack [edit] s' s := by
  obtain ⟨hhas, writable, -, rfl⟩ := setOrder_eq_ok_iff.1 hset
  exact ⟨s, putTokens_revert htyped writable hhas hbefore _, rfl⟩

/-- An op that is declared does not show in what is noted of the order. -/
theorem before_declare (op : Op) (type : ValueType) :
    Edit.before (s.declare id op.attributeName type) id Op.orderName .default =
      Edit.before s id Op.orderName .default := by
  have hfind : (s.declare id op.attributeName type).find? id Op.orderName =
      s.find? id Op.orderName := by
    rw [declare, find?_alter, if_neg fun hat => op.attributeName_ne_orderName hat.2.1]
  simp only [Edit.before, record?, authored?, hfind]

/-- Adding an op writes twice: the attribute of the op, where it is missing, and the order. -/
theorem addOp_takesBack (htyped : s.OrderTyped id) {op : Op} {edits : Journal}
    (hedits : Edit.beforeAdding s id op = .ok edits) (hadd : s.addOp id op = .ok (some s')) :
    Journal.TakesBack edits s' s := by
  obtain ⟨edit, record, hbefore, hrecord, rfl⟩ := Edit.beforeAdding_eq_ok_iff.1 hedits
  obtain ⟨hhas, writable, -, tokens, -, -, -, rfl⟩ := addOp_eq_ok_iff.1 hadd
  have horder : edit.revert ((s.declare id op.attributeName op.valueType).putTokens id
      (tokens.getD [] ++ [op.name])) = .ok (some (s.declare id op.attributeName op.valueType)) := by
    rw [← before_declare op op.valueType] at hbefore
    exact putTokens_revert (htyped.declare id op _) writable (by rw [declare, has_alter, hhas])
      hbefore _
  -- An attribute that was there was not created, and only the order is to be taken back.
  cases record with
  | none =>
    have hnone := record?_eq_none_iff.1 hrecord
    exact ⟨_, horder, s, Edit.revert_created writable hhas hnone _ rfl, rfl⟩
  | some record =>
    obtain ⟨a, ha, -⟩ := record?_eq_some_iff.1 hrecord
    have hsame : s.declare id op.attributeName op.valueType = s :=
      alter_of_eq s id _ _ (by rw [ha]; rfl)
    exact ⟨_, horder, hsame⟩

end Store

end TransformStack
