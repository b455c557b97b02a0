import TransformStack.Store.Reading

/-!
# Writing attributes

A write fails, or the store refuses it, or it gives a new store. A store that is closed to writing
refuses every write of an attribute; locks are not its concern.
-/

namespace TransformStack.Store

/-- Add an attribute of a type under a name, unless the name is in use. -/
def declare (s : Store) (id : EntityId) (name : String) (type : ValueType) : Store :=
  s.alter id name fun a => some (a.getD (.ofType type))

/-- Create an attribute. One that is there already is taken for it if the types agree. -/
def createAttribute (s : Store) (id : EntityId) (name : String) (type : ValueType) :
    Except StoreError (Option Store) := do
  let _ ← s.entity id
  if s.readOnly then return none
  match ← s.record? id name with
  | some found => return if found.type = type then some s else none
  | none => return some (s.declare id name type)

/-- Remove an attribute with all its values. -/
def removeAttribute (s : Store) (id : EntityId) (name : String) : Option Store :=
  if s.readOnly then none
  else (s.find? id name).map fun _ => s.alter id name fun _ => none

/-- Author a value at a time. The empty value is refused, and a value must have the declared
type. -/
def setValue (s : Store) (id : EntityId) (name : String) (value : Value) (time : TimeCode) :
    Except StoreError (Option Store) := do
  if s.readOnly then return none
  match ← s.record? id name, value.type? with
  | some found, some actual =>
    if actual ≠ found.type then throw (.typeMismatch name found.type actual)
    if time.time?.any (·.isNaN) then throw .timeless
    return some (s.alter id name (·.map (·.setCell (some (.value value)) time)))
  | _, _ => return none

/-- Take back what is authored exactly at a time. -/
def clearValue (s : Store) (id : EntityId) (name : String) (time : TimeCode) :
    Except StoreError (Option Store) := do
  if s.readOnly then return none
  match ← s.record? id name with
  | some _ => return some (s.alter id name (·.map (·.setCell none time)))
  | none => return none

/-- Lock an attribute against editing, or unlock it. This is open even when the store is closed to
writing. -/
def setLocked (s : Store) (id : EntityId) (name : String) (on : Bool) : Except StoreError Store :=
  match s.find? id name with
  | some _ => .ok (s.alter id name (·.map ({ · with locked := on })))
  | none => .error (.notFound (.named name id))

/-! ## Damage -/

/-- Put an arbitrary cell in place of the value that does not vary. -/
def overwriteFixed (s : Store) (id : EntityId) (name : String) (cell : Cell) : Store :=
  s.alter id name (·.map ({ · with fixed := some cell }))

/-- Put an arbitrary name in place of the declared type. -/
def overwriteType (s : Store) (id : EntityId) (name : String) (declared : DeclaredType) : Store :=
  s.alter id name (·.map ({ · with declared }))

end TransformStack.Store
