import TransformStack.Store.Basic

/-!
# Reading a store

What a reader learns of an attribute, the value it sees at a time, and whether the attribute may be
edited. A read of an attribute that is not there finds nothing; it fails only on what is stored
and cannot be read.
-/

namespace TransformStack

/-- What a reader learns of an attribute besides its values. -/
structure AttributeRecord where
  type : ValueType
  locked : Bool
  deriving DecidableEq

/-- Why an attribute may not be edited. -/
inductive EditBar where
  /-- The whole store is closed to writing. -/
  | readOnly
  /-- The attribute is locked. -/
  | locked (name : String)
  deriving DecidableEq

/-- The wording of why an attribute may not be edited. -/
def EditBar.message : EditBar → String
  | readOnly => "Cannot edit: the current edit target layer is read-only."
  | locked name => "Cannot edit [" ++ name ++ "] attribute because its lock status is 'locked'."

namespace Store

/-- The record of an attribute, if it is there. -/
def record? (s : Store) (id : EntityId) (name : String) :
    Except StoreError (Option AttributeRecord) :=
  match s.find? id name with
  | none => .ok none
  | some a => (fun type => some { type, locked := a.locked }) <$> a.declared.read

/-- The value authored exactly at a time. -/
def authored? (s : Store) (id : EntityId) (name : String) (time : TimeCode) :
    Except StoreError (Option Value) :=
  Cell.read? ((s.find? id name).bind (·.cell? time))

/-- The value that a reader sees at a time. -/
def value? (s : Store) (id : EntityId) (name : String) (time : TimeCode) :
    Except StoreError (Option Value) :=
  Cell.read? ((s.find? id name).bind (·.resolved? time))

/-- What bars an edit anywhere in the store. -/
def targetBar? (s : Store) : Option EditBar := if s.readOnly then some .readOnly else none

/-- What bars an edit of an attribute. One that is not there is not locked. -/
def editBar? (s : Store) (id : EntityId) (name : String) : Except StoreError (Option EditBar) :=
  match s.targetBar? with
  | some bar => .ok (some bar)
  | none => (·.bind fun r => if r.locked then some (.locked name) else none) <$> s.record? id name

end Store

end TransformStack
