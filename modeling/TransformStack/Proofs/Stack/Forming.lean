import TransformStack.Proofs.Stack.Reading
import TransformStack.Proofs.Store.Sampling

/-!
# Well formed entities

The kind of an op and the precision that is read off its attribute prescribe a type. An entity is
well formed if the attribute of each op declares that type, every op has a position, and all values
have the types that their attributes declare. What a command stores for an op at its position has
the prescribed type, so such attributes take it, and what they hold can be read at any time.
-/

namespace TransformStack

namespace Store

/-- The attribute of an op is there and declares the type that the op applies. -/
def Carries (s : Store) (id : EntityId) (op : Op) : Prop :=
  ∃ a, s.find? id op.attributeName = some a ∧ a.declared = .known op.valueType

/-- The order of an entity can be read, and each op of it has a position and is carried by its
attribute. -/
def Carried (s : Store) (id : EntityId) : Prop :=
  ∃ order, s.order id = .ok order ∧
    ∀ op ∈ order.ops, (∃ p, Position.ofOp? op = some p) ∧ s.Carries id op

/-- The order of an entity, where there is one, is declared as a list of tokens, every value has its
declared type, and every op has a position and an attribute of its type. -/
structure WellFormed (s : Store) (id : EntityId) : Prop where
  declared : ∀ a, s.find? id Op.orderName = some a → a.declared = .known .tokenArray
  values : ∀ name a, s.find? id name = some a → a.WellTyped
  ops : s.Carried id

end Store

/-! ## The types of stored values -/

/-- A rotation is stored with the type that the kind prescribes. -/
theorem Rotation.Form.type?_store {kind : OpKind} {form : Form} (h : formOf kind = .ok form)
    (angles : Vector3) (precision : Precision) :
    (form.store angles precision).type? = some (kind.valueType precision) := by
  cases kind <;> cases h <;> cases precision <;> rfl

/-- A vector is stored with the type that the kinds of vectors prescribe. -/
theorem Value.type?_ofVector_eq {kind : OpKind} (h : kind = .translate ∨ kind = .scale)
    (v : Vector3) (precision : Precision) :
    (ofVector v precision).type? = some (kind.valueType precision) := by
  rcases h with rfl | rfl <;> cases precision <;> rfl

/-- Ops at positions of vectors translate or scale. -/
theorem Position.kind_of_ofOp? {p : Position} {op : Op} (hplace : ofOp? op = some p)
    (hvector : p.converter = .vector) (hshear : p ≠ .shear) :
    op.kind = .translate ∨ op.kind = .scale := by
  rw [ofOp?_eq_some_iff, isPlaceOf, Bool.and_eq_true, Bool.and_eq_true] at hplace
  have hadmits := hplace.1.1
  cases p <;> first | contradiction | simp_all [admits, defaultKind, converter]

/-- What is stored for an op at a position has the type that the op applies. -/
theorem Position.type?_of_store {p : Position} {op : Op} {value : Vector3} {stored : Value}
    (hplace : ofOp? op = some p) (hshear : p ≠ .shear)
    (hstored : p.converter.store op value = .ok stored) :
    stored.type? = some op.valueType := by
  cases hconverter : p.converter with
  | vector =>
    rw [hconverter] at hstored
    obtain rfl := Except.ok.inj hstored
    exact Value.type?_ofVector_eq (kind_of_ofOp? hplace hconverter hshear) value op.precision
  | rotation =>
    rw [hconverter] at hstored
    obtain ⟨form, hform, rfl⟩ := map_eq_ok_iff.1 (mapError_eq_ok_iff.1 hstored)
    exact Rotation.Form.type?_store hform value op.precision

/-! ## Reading -/

namespace Attribute

/-- What is in force at a time stands at one of the sample times. -/
theorem exists_sample_of_held? {a : Attribute} {time : Binary64} {cell : Cell}
    (h : a.held? time = some cell) : ∃ place : SampleTime, a.samples[place]? = some cell := by
  rcases a.held?_cases time with ⟨-, hnone⟩ | ⟨place, cell', hplace, hheld, -⟩
  · rw [hnone] at h
    cases h
  · obtain rfl := Option.some.inj (h.symm.trans hheld)
    exact ⟨place, hplace⟩

/-- What a reader sees of a well typed attribute has the declared type. -/
theorem WellTyped.resolved? {a : Attribute} (h : a.WellTyped) {time : TimeCode} {cell : Cell}
    (hcell : a.resolved? time = some cell) : cell.Fits a.declared := by
  cases time with
  | default => exact h.fixed cell hcell
  | sample time =>
    rcases Option.or_eq_some_iff.1 hcell with hheld | ⟨-, hfixed⟩
    · obtain ⟨place, hplace⟩ := exists_sample_of_held? hheld
      exact h.samples place cell hplace
    · exact h.fixed cell hfixed

end Attribute

/-- A value of a vector's type is a vector. -/
theorem Value.exists_toVector? {kind : OpKind} (hkind : kind = .translate ∨ kind = .scale)
    {value : Value} {precision : Precision}
    (htype : value.type? = some (kind.valueType precision)) : ∃ v, value.toVector? = some v := by
  rcases hkind with rfl | rfl <;> cases precision <;> cases value <;> cases htype <;>
    exact ⟨_, rfl⟩

/-- A form loads every value of the type that the kind prescribes. -/
theorem Rotation.Form.exists_load {kind : OpKind} {form : Form} (h : formOf kind = .ok form)
    {value : Value} {precision : Precision}
    (htype : value.type? = some (kind.valueType precision)) : ∃ v, form.load value = .ok v := by
  cases kind <;> cases h <;> cases precision <;> cases value <;> cases htype <;> exact ⟨_, rfl⟩

/-- Of the ops that stand where rotations stand, only quaternions have no form. -/
theorem Position.formOf_of_ofOp? {p : Position} {op : Op} (hplace : ofOp? op = some p)
    (hrotation : p.converter = .rotation) :
    (∃ form, Rotation.formOf op.kind = .ok form) ∨ op.kind = .orient := by
  rw [ofOp?_eq_some_iff, isPlaceOf, Bool.and_eq_true, Bool.and_eq_true] at hplace
  have hadmits := hplace.1.1
  generalize op.kind = kind at hadmits ⊢
  cases p <;> cases hrotation <;> cases kind <;>
    first | exact .inl ⟨_, rfl⟩ | exact .inr rfl | cases hadmits

namespace StackView

variable {view : StackView} {s : Store} {p : Position}

/-- The first op at the position of the rotation is a quaternion, and a value resolves for it. -/
def HoldsQuaternion (view : StackView) (s : Store) : Prop :=
  ∃ op value, view.value? s .rotate = .ok (some (op, value)) ∧ op.kind = .orient

/-- All readers answer, but the one of the rotation exactly where it meets a quaternion. -/
structure Readable (view : StackView) (s : Store) : Prop where
  vectors : ∀ p, p.hasReader → p ≠ .rotate → ∃ v, view.read s p = .ok v
  rotation : ¬view.HoldsQuaternion s → ∃ v, view.read s .rotate = .ok v
  quaternion : view.HoldsQuaternion s →
    view.read s .rotate = .error (.data (.unsupportedRotation .orient))

/-- On a well formed entity a position can be read, and what resolves has the type of the op. -/
theorem exists_value? (h : s.WellFormed view.entity) (p : Position) :
    ∃ found, view.value? s p = .ok found ∧ ∀ op value, found = some (op, value) →
      Position.ofOp? op = some p ∧ value.type? = some op.valueType := by
  obtain ⟨order, horder, hops⟩ := h.ops
  rw [value?_of_order horder]
  cases hat : order.at? p with
  | none => exact ⟨none, rfl, fun _ _ hnone => nomatch hnone⟩
  | some op =>
    obtain ⟨-, a, ha, hdeclared⟩ := hops op (List.mem_of_find?_eq_some hat)
    have hplace : Position.ofOp? op = some p := by simpa using List.find?_some hat
    dsimp only
    rw [Store.value?, ha, Option.bind_some]
    cases hcell : a.resolved? view.time with
    | none => exact ⟨none, rfl, fun _ _ hnone => nomatch hnone⟩
    | some cell =>
      obtain ⟨value, type, rfl, htype, hknown⟩ := (h.values _ a ha).resolved? hcell
      rw [hdeclared] at hknown
      cases hknown
      refine ⟨some (op, value), rfl, ?_⟩
      rintro _ _ ⟨⟩
      exact ⟨hplace, htype⟩

/-- The entity can be read at any time. -/
theorem readable_of_wellFormed (h : s.WellFormed view.entity) : view.Readable s := by
  refine ⟨fun p hp hrotate => ?_, fun hnone => ?_, ?_⟩
  · obtain ⟨found, hfound, htyped⟩ := exists_value? h p
    have hread : view.read s p = view.vector s p := by
      cases p <;> first | rfl | contradiction
    rw [hread, vector, hfound]
    cases found with
    | none => exact ⟨_, rfl⟩
    | some found =>
      obtain ⟨op, value⟩ := found
      obtain ⟨hplace, htype⟩ := htyped op value rfl
      have hkind : op.kind = .translate ∨ op.kind = .scale := by
        refine Position.kind_of_ofOp? hplace ?_ ?_
        · cases p <;> first | rfl | contradiction
        · rintro rfl
          cases hp
      obtain ⟨v, hv⟩ := Value.exists_toVector? hkind htype
      exact ⟨v, by simp [bind, Except.bind, hv, pure, Except.pure]⟩
  · -- A quaternion has no Euler form; it is told apart by the last of the three parts.
    obtain ⟨found, hfound, htyped⟩ := exists_value? h .rotate
    rw [read, rotation, hfound]
    cases found with
    | none => exact ⟨_, rfl⟩
    | some found =>
      obtain ⟨op, value⟩ := found
      obtain ⟨hplace, htype⟩ := htyped op value rfl
      rcases Position.formOf_of_ofOp? hplace rfl with ⟨form, hform⟩ | horient
      · obtain ⟨v, hv⟩ := Rotation.Form.exists_load hform htype
        exact ⟨v, by simp [bind, Except.bind, hform, hv, EditError.ofData, Except.mapError]⟩
      · exact absurd ⟨op, value, hfound, horient⟩ hnone
  · rintro ⟨op, value, hvalue, horient⟩
    rw [read, rotation, hvalue]
    simp [bind, Except.bind, horient, Rotation.formOf, EditError.ofData, Except.mapError]

end StackView

end TransformStack
