import TransformStack.Proofs.Store.Order

/-!
# Writes that do not meet

Changes under different names of an entity can be made in either order. So a value that is settled
on an attribute, which is created for it if need be, and tokens that are put into the order can be
exchanged with each other and with values of other attributes. None of these writes changes the type
that an attribute declares, or whether it is locked.
-/

namespace TransformStack

namespace Store

variable {s : Store} {id : EntityId} {name name' : String}

/-- Changes under different names can be made in either order. -/
theorem alter_comm (hne : name ≠ name') (f g : Option Attribute → Option Attribute) :
    (s.alter id name f).alter id name' g = (s.alter id name' g).alter id name f := by
  simp only [alter, Store.mk.injEq, true_and]
  apply Std.ExtTreeMap.ext_getElem?
  intro id'
  by_cases hid : id = id'
  · subst hid
    simp only [Std.ExtTreeMap.getElem?_modify, Std.compare_self, if_true, Option.map_map]
    congr 1
    funext e
    simp only [Function.comp, Entity.mk.injEq, true_and]
    apply Std.ExtTreeMap.ext_getElem?
    intro key
    simp only [Std.ExtTreeMap.getElem?_alter, Std.LawfulEqOrd.compare_eq_iff_eq]
    by_cases hkey : name = key
    · subst hkey
      simp [Ne.symm hne]
    · simp [hkey, hne]
  · simp [Std.ExtTreeMap.getElem?_modify, hid]

/-- Changes that agree on what stands under the name come to the same. -/
theorem alter_congr {f g : Option Attribute → Option Attribute}
    (h : f (s.find? id name) = g (s.find? id name)) : s.alter id name f = s.alter id name g := by
  have hkept : s.alter id name (fun _ => s.find? id name) = s := alter_of_eq s id name _ rfl
  calc s.alter id name f
      = (s.alter id name fun _ => s.find? id name).alter id name f := by rw [hkept]
    _ = (s.alter id name fun _ => s.find? id name).alter id name g := by
        rw [alter_alter, alter_alter, h]
    _ = s.alter id name g := by rw [hkept]

/-! ## Values and tokens -/

/-- Settle a value on an attribute, which is created for it if need be. -/
def settle (s : Store) (id : EntityId) (name : String) (type : ValueType) (value : Value) :
    Store :=
  s.alter id name fun a => some ((a.getD (.ofType type)).setCell (some (.value value)) .default)

variable {type type' : ValueType} {value value' : Value} {tokens : List String}

/-- Of two lists of tokens put into an order the second stays. -/
theorem putTokens_putTokens (tokens' : List String) :
    (s.putTokens id tokens).putTokens id tokens' = s.putTokens id tokens' := by
  rw [putTokens, putTokens, putTokens, alter_alter]
  congr 1

/-- Declaring an attribute other than the order and writing an order can trade places. -/
theorem declare_putTokens (hne : name ≠ Op.orderName) :
    (s.putTokens id tokens).declare id name type = (s.declare id name type).putTokens id tokens :=
  alter_comm hne.symm _ _

/-- An attribute is declared once. -/
theorem declare_declare : (s.declare id name type).declare id name type =
    s.declare id name type := by
  rw [declare, declare, alter_alter]
  congr 1

/-- Values of different attributes can be settled in either order. -/
theorem settle_comm (hne : name ≠ name') :
    (s.settle id name type value).settle id name' type' value' =
      (s.settle id name' type' value').settle id name type value :=
  alter_comm hne _ _

/-- A value of another attribute can be settled before tokens are put into the order. -/
theorem settle_putTokens (hne : name ≠ Op.orderName) :
    (s.putTokens id tokens).settle id name type value =
      (s.settle id name type value).putTokens id tokens :=
  alter_comm hne.symm _ _

/-- Writing an order leaves the other attributes. -/
theorem find?_putTokens_of_ne (hne : name ≠ Op.orderName) :
    (s.putTokens id tokens).find? id name = s.find? id name := by
  rw [putTokens, find?_alter, if_neg fun hat => hne hat.2.1.symm]

/-- Settling a value leaves the other attributes. -/
theorem find?_settle_of_ne (hne : name ≠ name') :
    (s.settle id name type value).find? id name' = s.find? id name' := by
  rw [settle, find?_alter, if_neg fun hat => hne hat.2.1]

/-! ## Declared types and locks -/

/-- The record of an attribute can be read, and does not say that the attribute is locked. -/
def Unlocked (s : Store) (id : EntityId) (name : String) : Prop :=
  ∃ record, s.record? id name = .ok record ∧ record.any (·.locked) = false

/-- The record of an attribute can be read, and does not say that the type is another one. -/
def Fits (s : Store) (id : EntityId) (name : String) (type : ValueType) : Prop :=
  ∃ record, s.record? id name = .ok record ∧ record.any (·.type ≠ type) = false

/-- A change of an attribute leaves the records of the others. -/
theorem record?_alter_of_ne (hne : name ≠ name') (change : Option Attribute → Option Attribute) :
    (s.alter id name change).record? id name' = s.record? id name' := by
  rw [record?, record?, find?_alter, if_neg fun hat => hne hat.2.1]

/-- What is made of an attribute without touching its type and its lock reads like the attribute;
one that is created has the type it was created with and is not locked. -/
theorem record?_alter_getD (hhas : s.has id) {f : Attribute → Attribute}
    (hdeclared : ∀ a, (f a).declared = a.declared) (hlocked : ∀ a, (f a).locked = a.locked) :
    (s.alter id name fun a => some (f (a.getD (.ofType type)))).record? id name =
      (fun record => some (record.getD ⟨type, false⟩)) <$> s.record? id name := by
  rw [record?, record?, find?_alter, if_pos ⟨rfl, rfl, hhas⟩]
  cases s.find? id name with
  | none => simp [hdeclared, hlocked, Attribute.ofType, DeclaredType.read, Functor.map, Except.map]
  | some a =>
    simp only [Option.getD_some, hdeclared, hlocked]
    cases a.declared.read <;> rfl

/-- A change that keeps the declaration and the lock of an attribute locks and unlocks nothing. -/
theorem unlocked_alter_getD (hhas : s.has id) {f : Attribute → Attribute}
    (hdeclared : ∀ a, (f a).declared = a.declared) (hlocked : ∀ a, (f a).locked = a.locked) :
    (s.alter id name fun a => some (f (a.getD (.ofType type)))).Unlocked id name ↔
      s.Unlocked id name := by
  rw [Unlocked, Unlocked, record?_alter_getD hhas hdeclared hlocked]
  constructor
  · rintro ⟨record', hrecord', hopen⟩
    obtain ⟨record, hrecord, rfl⟩ := map_eq_ok_iff.1 hrecord'
    refine ⟨record, hrecord, ?_⟩
    cases record with
    | none => rfl
    | some record => exact hopen
  · rintro ⟨record, hrecord, hopen⟩
    refine ⟨_, map_eq_ok_iff.2 ⟨record, hrecord, rfl⟩, ?_⟩
    cases record with
    | none => rfl
    | some record => exact hopen

/-- A change that keeps the declaration and the lock of an attribute keeps what fits. -/
theorem Fits.alter_getD (h : s.Fits id name type) (hhas : s.has id) {f : Attribute → Attribute}
    (hdeclared : ∀ a, (f a).declared = a.declared) (hlocked : ∀ a, (f a).locked = a.locked) :
    (s.alter id name fun a => some (f (a.getD (.ofType type)))).Fits id name type := by
  obtain ⟨record, hrecord, hsame⟩ := h
  rw [Fits, record?_alter_getD hhas hdeclared hlocked]
  refine ⟨_, map_eq_ok_iff.2 ⟨record, hrecord, rfl⟩, ?_⟩
  cases record with
  | none => simp
  | some record => exact hsame

end Store

end TransformStack
