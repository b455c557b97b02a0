import TransformStack.Op.Naming
import TransformStack.Proofs.Store.Attribute
import TransformStack.Proofs.Store.Writing

/-!
# Stores whose values have their declared types

In a well typed store every value has the type that its attribute declares, and the attribute of an
order is declared as a list of tokens. Changing one attribute keeps a store well typed if what comes
of the attribute is, so each write keeps it.
-/

namespace TransformStack

/-! ## Attributes -/

/-- The cell holds a value of a declared type. -/
def Cell.Fits (cell : Cell) (declared : DeclaredType) : Prop :=
  ∃ value type, cell = .value value ∧ value.type? = some type ∧ declared = .known type

/-- All that an attribute holds has the type that the attribute declares. -/
structure Attribute.WellTyped (a : Attribute) : Prop where
  fixed : ∀ cell, a.fixed = some cell → cell.Fits a.declared
  samples : ∀ (place : SampleTime) cell, a.samples[place]? = some cell → cell.Fits a.declared

namespace Attribute.WellTyped

/-- A new attribute holds nothing. -/
theorem ofType (type : ValueType) : (Attribute.ofType type).WellTyped :=
  ⟨by simp [Attribute.ofType], by simp [Attribute.ofType]⟩

/-- Writing a cell that fits keeps an attribute well typed. -/
theorem setCell {a : Attribute} (h : a.WellTyped) {c : Option Cell} (time : TimeCode)
    (hc : ∀ cell, c = some cell → cell.Fits a.declared) : (a.setCell c time).WellTyped := by
  rw [← declared_setCell a c time] at hc
  refine ⟨fun cell hcell => ?_, fun place cell hcell => ?_⟩
  · rcases fixed_setCell hcell with hold | hnew
    · rw [declared_setCell]
      exact h.fixed cell hold
    · exact hc cell hnew
  · rcases samples_setCell hcell with hold | hnew
    · rw [declared_setCell]
      exact h.samples place cell hold
    · exact hc cell hnew

/-- A cell of a well typed attribute fits its declaration. -/
theorem cell? {a : Attribute} (h : a.WellTyped) {time : TimeCode} {cell : Cell}
    (hcell : a.cell? time = some cell) : cell.Fits a.declared := by
  cases time with
  | default => exact h.fixed cell hcell
  | sample time =>
    obtain ⟨place, -, hplace⟩ := Option.bind_eq_some_iff.1 hcell
    exact h.samples place cell hplace

end Attribute.WellTyped

/-- The order of an entity is not one of the attributes that ops apply. -/
theorem Op.attributeName_ne_orderName (op : Op) : op.attributeName ≠ Op.orderName := by
  intro h
  have hparts : Op.parts? Op.orderName = some (op.kind, op.suffix) :=
    Op.parts?_eq_some_iff.2 h.symm
  have hnone : Op.parts? Op.orderName = none := by decide
  simp [hnone] at hparts

/-! ## Stores -/

namespace Store

/-- The attribute of an order, where there is one, is declared as a list of tokens. -/
def OrdersDeclared (s : Store) : Prop :=
  ∀ id a, s.find? id Op.orderName = some a → a.declared = .known .tokenArray

/-- Every value of the store has its declared type, and orders are declared as lists of tokens. -/
structure WellTyped (s : Store) : Prop where
  values : ∀ id name a, s.find? id name = some a → a.WellTyped
  orders : s.OrdersDeclared

/-- The order of an entity, where there is one, is declared as a list of tokens and holds one. -/
def OrderTyped (s : Store) (id : EntityId) : Prop :=
  ∀ a, s.find? id Op.orderName = some a →
    a.declared = .known .tokenArray ∧ ∀ cell, a.fixed = some cell → cell.Fits a.declared

/-- What is authored at a time of an attribute, where anything is, has the type that the attribute
declares. -/
def ValueTyped (s : Store) (id : EntityId) (name : String) (time : TimeCode) : Prop :=
  ∀ a, s.find? id name = some a → ∀ cell, a.cell? time = some cell → cell.Fits a.declared

variable {s s' : Store} {id : EntityId} {name : String} {time : TimeCode}

/-- Setting the lock of a store to what it is changes nothing. -/
theorem setReadOnly_of_eq {on : Bool} (h : s.readOnly = on) : s.setReadOnly on = s := by
  rw [setReadOnly, ← h]

/-- A well typed store has all its orders typed. -/
theorem WellTyped.orderTyped (h : s.WellTyped) (id : EntityId) : s.OrderTyped id :=
  fun a ha => ⟨h.orders id a ha, (h.values id _ a ha).fixed⟩

/-- A well typed store has all its values typed. -/
theorem WellTyped.valueTyped (h : s.WellTyped) (id : EntityId) (name : String) (time : TimeCode) :
    s.ValueTyped id name time :=
  fun a ha _ hcell => (h.values id name a ha).cell? hcell

@[simp] theorem has_alter (change : Option Attribute → Option Attribute) (id' : EntityId) :
    (s.alter id name change).has id' = s.has id' := by
  simp only [has, alter, Std.ExtTreeMap.getElem?_modify]
  split <;> simp_all

/-- A change that declares no order as anything but tokens keeps all orders declared. -/
theorem OrdersDeclared.alter (h : s.OrdersDeclared)
    {change : Option Attribute → Option Attribute}
    (hchange : ∀ a, change (s.find? id name) = some a → name = Op.orderName →
      a.declared = .known .tokenArray) :
    (s.alter id name change).OrdersDeclared := by
  intro id' a ha
  rw [find?_alter] at ha
  split at ha
  · next hat =>
    obtain ⟨rfl, rfl, -⟩ := hat
    exact hchange a ha rfl
  · exact h id' a ha

/-- A change to a well typed attribute keeps the store well typed. -/
theorem WellTyped.alter (h : s.WellTyped) {change : Option Attribute → Option Attribute}
    (hchange : ∀ a, change (s.find? id name) = some a →
      a.WellTyped ∧ (name = Op.orderName → a.declared = .known .tokenArray)) :
    (s.alter id name change).WellTyped := by
  refine ⟨fun id' name' a ha => ?_, h.orders.alter fun a ha => (hchange a ha).2⟩
  rw [find?_alter] at ha
  split at ha
  · next hat =>
    obtain ⟨rfl, rfl, -⟩ := hat
    exact (hchange a ha).1
  · exact h.values id' name' a ha

/-- A change that leaves the order typed if it changes it keeps the order typed. -/
theorem OrderTyped.alter (h : s.OrderTyped id) {id' : EntityId}
    {change : Option Attribute → Option Attribute}
    (hchange : id' = id → name = Op.orderName → ∀ a, change (s.find? id Op.orderName) = some a →
      a.declared = .known .tokenArray ∧ ∀ cell, a.fixed = some cell → cell.Fits a.declared) :
    (s.alter id' name change).OrderTyped id := by
  intro a ha
  rw [find?_alter] at ha
  split at ha
  · next hat =>
    obtain ⟨rfl, rfl, -⟩ := hat
    exact hchange rfl rfl a ha
  · exact h a ha

/-! ## Writes -/

/-- Declaring an attribute gives no attribute of an order another type. -/
theorem OrdersDeclared.declare (h : s.OrdersDeclared) (op : Op) (type : ValueType) :
    (s.declare id op.attributeName type).OrdersDeclared :=
  h.alter fun _ _ hname => absurd hname op.attributeName_ne_orderName

/-- The attribute of an order keeps its declared type when tokens are put into it. -/
theorem declared_putTokens (h : ∀ a, s.find? id Op.orderName = some a →
      a.declared = .known .tokenArray) (tokens : List String) {a : Attribute}
    (ha : some { (s.find? id Op.orderName).getD (.ofType .tokenArray) with
      fixed := some (.value (.tokens tokens)) } = some a) :
    a.declared = .known .tokenArray ∧ ∀ cell, a.fixed = some cell → cell.Fits a.declared := by
  obtain rfl := Option.some.inj ha
  have hdeclared : ((s.find? id Op.orderName).getD (.ofType .tokenArray)).declared =
      .known .tokenArray := by
    cases hfind : s.find? id Op.orderName with
    | none => rfl
    | some a => exact h a hfind
  refine ⟨hdeclared, ?_⟩
  rintro cell ⟨⟩
  exact ⟨_, _, rfl, rfl, hdeclared⟩

theorem OrdersDeclared.putTokens (h : s.OrdersDeclared) (tokens : List String) :
    (s.putTokens id tokens).OrdersDeclared :=
  h.alter fun _ ha _ => (declared_putTokens (h id) tokens ha).1

/-- Declaring the attribute of an op keeps the order typed. -/
theorem OrderTyped.declare (h : s.OrderTyped id) (id' : EntityId) (op : Op) (type : ValueType) :
    (s.declare id' op.attributeName type).OrderTyped id :=
  h.alter fun _ hname => absurd hname op.attributeName_ne_orderName

theorem OrderTyped.putTokens (h : s.OrderTyped id) (id' : EntityId) (tokens : List String) :
    (s.putTokens id' tokens).OrderTyped id :=
  h.alter fun _ _ _ ha => declared_putTokens (fun a ha => (h a ha).1) tokens ha

/-- A declared attribute holds what it held, or nothing. -/
theorem ValueTyped.declare (h : s.ValueTyped id name time) (id' : EntityId) (name' : String)
    (type : ValueType) : (s.declare id' name' type).ValueTyped id name time := by
  intro a ha
  rw [Store.declare, find?_alter] at ha
  split at ha
  · next hat =>
    obtain ⟨rfl, rfl, -⟩ := hat
    obtain rfl := Option.some.inj ha
    cases hfind : s.find? id' name' with
    | none => exact fun _ hcell => (Attribute.WellTyped.ofType type).cell? hcell
    | some a => exact h a hfind
  · exact h a ha

/-- Writing tokens keeps a value typed that is not the order. -/
theorem ValueTyped.putTokens (h : s.ValueTyped id name time) (hname : name ≠ Op.orderName)
    (id' : EntityId) (tokens : List String) : (s.putTokens id' tokens).ValueTyped id name time := by
  intro a ha
  rw [Store.putTokens, find?_alter, if_neg fun hat => hname hat.2.1.symm] at ha
  exact h a ha

theorem WellTyped.declare (h : s.WellTyped) (op : Op) (type : ValueType) :
    (s.declare id op.attributeName type).WellTyped := by
  refine h.alter fun a ha => ⟨?_, fun hname => absurd hname op.attributeName_ne_orderName⟩
  obtain rfl := Option.some.inj ha
  cases hfind : s.find? id op.attributeName with
  | none => exact .ofType type
  | some a => exact h.values id _ a hfind

theorem WellTyped.putTokens (h : s.WellTyped) (tokens : List String) :
    (s.putTokens id tokens).WellTyped := by
  refine ⟨(h.alter fun a ha => ?_).values, h.orders.putTokens tokens⟩
  obtain ⟨hdeclared, hfixed⟩ := declared_putTokens (h.orders id) tokens ha
  refine ⟨⟨hfixed, ?_⟩, fun _ => hdeclared⟩
  obtain rfl := Option.some.inj ha
  cases hfind : s.find? id Op.orderName with
  | none => exact (Attribute.WellTyped.ofType .tokenArray).samples
  | some a => exact (h.values id _ a hfind).samples

theorem OrdersDeclared.setValue (h : s.OrdersDeclared) {op : Op} {value : Value} {time : TimeCode}
    (hset : s.setValue id op.attributeName value time = .ok (some s')) : s'.OrdersDeclared := by
  obtain ⟨-, -, -, -, -, -, -, rfl⟩ := setValue_eq_ok_iff.1 hset
  exact h.alter fun _ _ hname => absurd hname op.attributeName_ne_orderName

theorem OrdersDeclared.setOrder (h : s.OrdersDeclared) {order : OpOrder}
    (hset : s.setOrder id order = .ok (some s')) : s'.OrdersDeclared := by
  obtain ⟨-, -, -, rfl⟩ := setOrder_eq_ok_iff.1 hset
  exact h.putTokens _

theorem OrdersDeclared.addOp (h : s.OrdersDeclared) {op : Op}
    (hadd : s.addOp id op = .ok (some s')) : s'.OrdersDeclared := by
  obtain ⟨-, -, -, tokens, -, -, -, rfl⟩ := addOp_eq_ok_iff.1 hadd
  exact (h.declare op _).putTokens _

theorem WellTyped.setValue (h : s.WellTyped) {value : Value} {time : TimeCode}
    (hset : s.setValue id name value time = .ok (some s')) : s'.WellTyped := by
  obtain ⟨-, a, type, ha, hdeclared, htype, -, rfl⟩ := setValue_eq_ok_iff.1 hset
  refine h.alter fun a' ha' => ?_
  rw [ha] at ha'
  obtain rfl := Option.some.inj ha'
  refine ⟨(h.values id name a ha).setCell time ?_, ?_⟩
  · rintro cell ⟨⟩
    exact ⟨value, type, rfl, htype, hdeclared⟩
  · rintro rfl
    simpa using h.orders id a ha

theorem OrderTyped.setOrder (h : s.OrderTyped id) {id' : EntityId} {order : OpOrder}
    (hset : s.setOrder id' order = .ok (some s')) : s'.OrderTyped id := by
  obtain ⟨-, -, -, rfl⟩ := setOrder_eq_ok_iff.1 hset
  exact h.putTokens id' _

theorem OrderTyped.addOp (h : s.OrderTyped id) {id' : EntityId} {op : Op}
    (hadd : s.addOp id' op = .ok (some s')) : s'.OrderTyped id := by
  obtain ⟨-, -, -, tokens, -, -, -, rfl⟩ := addOp_eq_ok_iff.1 hadd
  exact (h.declare id' op _).putTokens id' _

/-- Setting an order keeps a value typed that is not the order. -/
theorem ValueTyped.setOrder (h : s.ValueTyped id name time) (hname : name ≠ Op.orderName)
    {id' : EntityId} {order : OpOrder} (hset : s.setOrder id' order = .ok (some s')) :
    s'.ValueTyped id name time := by
  obtain ⟨-, -, -, rfl⟩ := setOrder_eq_ok_iff.1 hset
  exact h.putTokens hname id' _

theorem ValueTyped.addOp (h : s.ValueTyped id name time) (hname : name ≠ Op.orderName)
    {id' : EntityId} {op : Op} (hadd : s.addOp id' op = .ok (some s')) :
    s'.ValueTyped id name time := by
  obtain ⟨-, -, -, tokens, -, -, -, rfl⟩ := addOp_eq_ok_iff.1 hadd
  exact (h.declare id' _ _).putTokens hname id' _

theorem WellTyped.setOrder (h : s.WellTyped) {order : OpOrder}
    (hset : s.setOrder id order = .ok (some s')) : s'.WellTyped := by
  obtain ⟨-, -, -, rfl⟩ := setOrder_eq_ok_iff.1 hset
  exact h.putTokens _

theorem WellTyped.addOp (h : s.WellTyped) {op : Op} (hadd : s.addOp id op = .ok (some s')) :
    s'.WellTyped := by
  obtain ⟨-, -, -, tokens, -, -, -, rfl⟩ := addOp_eq_ok_iff.1 hadd
  exact (h.declare op _).putTokens _

/-! ## A store to begin with -/

/-- A store of one entity that has no attributes. -/
def bare : Store := { entities := (empty.entities).insert default { path := "/a" } }

/-- Where there are no attributes, all of them have their types. -/
theorem wellTyped_bare : bare.WellTyped := by
  have hfind (id : EntityId) (name : String) : bare.find? id name = none := by
    rw [find?, bare, Std.ExtTreeMap.getElem?_insert]
    split <;> simp [empty]
  refine ⟨fun id name a ha => ?_, fun id a ha => ?_⟩
  · rw [hfind] at ha
    cases ha
  · rw [hfind] at ha
    cases ha

end Store

end TransformStack
