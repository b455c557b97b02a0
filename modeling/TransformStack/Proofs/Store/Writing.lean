import TransformStack.Store.Order
import TransformStack.Proofs.Outcome

/-!
# When writes succeed

Each write of a store can fail, be refused, or give a new store. For each of them there is one
lemma that says when it gives a new store, and which one.
-/

namespace TransformStack

namespace Store

variable {s s' : Store} {id : EntityId} {name : String}

/-- Finding an entity succeeds exactly if it is there. -/
theorem entity_eq_ok_iff {e : Entity} : s.entity id = .ok e ↔ s.entities[id]? = some e := by
  unfold entity
  split <;> simp_all

/-- An entity is there exactly if finding it succeeds. -/
theorem has_iff : s.has id ↔ ∃ e, s.entity id = .ok e := by
  simp only [entity_eq_ok_iff, has, Option.isSome_iff_exists]

/-- An attribute can only belong to an entity that is there. -/
theorem has_of_find? {a : Attribute} (h : s.find? id name = some a) : s.has id := by
  obtain ⟨e, he, -⟩ := Option.bind_eq_some_iff.1 h
  simp [has, he]

/-- There is no record exactly where there is no attribute. -/
theorem record?_eq_none_iff : s.record? id name = .ok none ↔ s.find? id name = none := by
  unfold record?
  split
  · simp_all
  · next a _ => cases a.declared <;> simp_all [DeclaredType.read, Functor.map, Except.map]

/-- The record of an attribute has its type and its lock. -/
theorem record?_eq_some_iff {r : AttributeRecord} :
    s.record? id name = .ok (some r) ↔
      ∃ a, s.find? id name = some a ∧ a.declared = .known r.type ∧ a.locked = r.locked := by
  obtain ⟨type, locked⟩ := r
  unfold record?
  split
  · simp_all
  · next a ha =>
    rw [ha]
    cases hd : a.declared <;> simp [DeclaredType.read, Functor.map, Except.map, hd]

/-- An attribute is removed exactly if it is there and the store is open. -/
theorem removeAttribute_eq_some_iff :
    s.removeAttribute id name = some s' ↔
      s.readOnly = false ∧ (∃ a, s.find? id name = some a) ∧
        s' = s.alter id name fun _ => none := by
  unfold removeAttribute
  cases s.readOnly <;> cases s.find? id name <;> simp [eq_comm]

/-- A value is set exactly if its attribute declares its type and the time is a number. -/
theorem setValue_eq_ok_iff {value : Value} {time : TimeCode} :
    s.setValue id name value time = .ok (some s') ↔
      s.readOnly = false ∧ ∃ a type, s.find? id name = some a ∧ a.declared = .known type ∧
        value.type? = some type ∧ time.time?.any (·.isNaN) = false ∧
        s' = s.alter id name (·.map (·.setCell (some (.value value)) time)) := by
  unfold setValue
  constructor
  · intro h
    split at h
    · simp [pure_eq_ok_iff] at h
    · next writable =>
      obtain ⟨record, hrecord, h⟩ := bind_eq_ok_iff.1 h
      split at h
      · next found actual hactual =>
        obtain ⟨a, ha, hdeclared, -⟩ := record?_eq_some_iff.1 hrecord
        by_cases htype : actual = found.type
        · subst htype
          by_cases htime : time.time?.any (·.isNaN)
          · simp [htime, map_eq_ok_iff, throw_ne_ok] at h
          · simp only [ne_eq, not_true_eq_false, htime, if_false, pure_eq_ok_iff,
              Option.some.injEq, Bool.false_eq_true] at h
            exact ⟨by simpa using writable, a, _, ha, hdeclared, hactual,
              by simpa using htime, h.symm⟩
        · simp [htype, bind_eq_ok_iff, throw_ne_ok] at h
      · simp [pure_eq_ok_iff] at h
  · rintro ⟨writable, a, type, ha, hdeclared, hactual, htime, rfl⟩
    have hrecord : s.record? id name = .ok (some ⟨type, a.locked⟩) :=
      record?_eq_some_iff.2 ⟨a, ha, hdeclared, rfl⟩
    rw [writable, if_neg (by simp), bind_eq_ok_iff]
    exact ⟨_, hrecord, by simp [hactual, htime, pure_eq_ok_iff]⟩

/-- A value is cleared exactly if its attribute declares a type that is known. -/
theorem clearValue_eq_ok_iff {time : TimeCode} :
    s.clearValue id name time = .ok (some s') ↔
      s.readOnly = false ∧ ∃ a type, s.find? id name = some a ∧ a.declared = .known type ∧
        s' = s.alter id name (·.map (·.setCell none time)) := by
  unfold clearValue
  constructor
  · intro h
    split at h
    · simp [pure_eq_ok_iff] at h
    · next writable =>
      obtain ⟨record, hrecord, h⟩ := bind_eq_ok_iff.1 h
      cases record with
      | none => simp [pure_eq_ok_iff] at h
      | some found =>
        obtain ⟨a, ha, hdeclared, -⟩ := record?_eq_some_iff.1 hrecord
        simp only [pure_eq_ok_iff, Option.some.injEq] at h
        exact ⟨by simpa using writable, a, _, ha, hdeclared, h.symm⟩
  · rintro ⟨writable, a, type, ha, hdeclared, rfl⟩
    have hrecord : s.record? id name = .ok (some ⟨type, a.locked⟩) :=
      record?_eq_some_iff.2 ⟨a, ha, hdeclared, rfl⟩
    rw [writable, if_neg (by simp), bind_eq_ok_iff]
    exact ⟨_, hrecord, by simp [pure_eq_ok_iff]⟩

/-- An order is set exactly on an entity of an open store, where the type of the old one is
known. -/
theorem setOrder_eq_ok_iff {order : OpOrder} :
    s.setOrder id order = .ok (some s') ↔
      s.has id ∧ s.readOnly = false ∧ (∃ record, s.record? id Op.orderName = .ok record) ∧
        s' = s.putTokens id order.tokens := by
  unfold setOrder
  constructor
  · intro h
    obtain ⟨e, he, h⟩ := bind_eq_ok_iff.1 h
    split at h
    · simp [pure_eq_ok_iff] at h
    next writable =>
    obtain ⟨record, hrecord, h⟩ := bind_eq_ok_iff.1 h
    simp only [pure_eq_ok_iff, Option.some.injEq] at h
    exact ⟨has_iff.2 ⟨e, he⟩, by simpa using writable, ⟨record, hrecord⟩, h.symm⟩
  · rintro ⟨hhas, writable, ⟨record, hrecord⟩, rfl⟩
    obtain ⟨e, he⟩ := has_iff.1 hhas
    rw [bind_eq_ok_iff]
    refine ⟨e, he, ?_⟩
    rw [writable, if_neg (by simp), bind_eq_ok_iff]
    exact ⟨record, hrecord, rfl⟩

/-- An op is added exactly if it is new to an order that is not locked and its attribute, if there,
has its type. -/
theorem addOp_eq_ok_iff {op : Op} :
    s.addOp id op = .ok (some s') ↔
      s.has id ∧ s.readOnly = false ∧
        (∃ order, s.record? id Op.orderName = .ok order ∧ order.any (·.locked) = false) ∧
        ∃ tokens, s.orderTokens? id = .ok tokens ∧ op.name ∉ tokens.getD [] ∧
          (∃ record, s.record? id op.attributeName = .ok record ∧
            record.any (·.type ≠ op.valueType) = false) ∧
          s' = (s.declare id op.attributeName op.valueType).putTokens id
            (tokens.getD [] ++ [op.name]) := by
  unfold addOp
  constructor
  · intro h
    obtain ⟨e, he, h⟩ := bind_eq_ok_iff.1 h
    -- The guards in turn: each answers no, or is passed and named.
    split at h
    · simp [pure_eq_ok_iff] at h
    next writable =>
    obtain ⟨order, horder, h⟩ := bind_eq_ok_iff.1 h
    split at h
    · simp [pure_eq_ok_iff] at h
    next unlocked =>
    obtain ⟨tokens, htokens, h⟩ := bind_eq_ok_iff.1 h
    dsimp only at h
    split at h
    · simp [pure_eq_ok_iff] at h
    next hnew =>
    obtain ⟨record, hrecord, h⟩ := bind_eq_ok_iff.1 h
    split at h
    · simp [pure_eq_ok_iff] at h
    next hsame =>
    simp only [pure_eq_ok_iff, Option.some.injEq] at h
    exact ⟨has_iff.2 ⟨e, he⟩, by simpa using writable, ⟨order, horder, by simpa using unlocked⟩,
      tokens, htokens, hnew, ⟨record, hrecord, by simpa using hsame⟩, h.symm⟩
  · rintro ⟨hhas, writable, ⟨order, horder, unlocked⟩, tokens, htokens, hnew,
      ⟨record, hrecord, hsame⟩, rfl⟩
    obtain ⟨e, he⟩ := has_iff.1 hhas
    rw [bind_eq_ok_iff]
    refine ⟨e, he, ?_⟩
    rw [writable, if_neg (by simp), bind_eq_ok_iff]
    refine ⟨order, horder, ?_⟩
    rw [unlocked, if_neg (by simp), bind_eq_ok_iff]
    refine ⟨tokens, htokens, ?_⟩
    dsimp only
    rw [if_neg hnew, bind_eq_ok_iff]
    exact ⟨record, hrecord, by rw [hsame]; rfl⟩

end Store
end TransformStack
