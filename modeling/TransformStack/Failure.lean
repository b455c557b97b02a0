import TransformStack.Op.Position
import TransformStack.Scene.Entity
import TransformStack.Value.Text

/-!
# What can go wrong

Failures are causes; their wording is one function for each layer. Data can be malformed, a store
can lack what is asked of it, and an edit can find no way to write what it should. A message names
an entity by a label that the reader of the message chooses.
-/

namespace TransformStack

/-! ## Data -/

/-- A name or a value that does not fit its use. -/
inductive DataError where
  | unknownOp (name : String)
  | unknownType (name : String)
  | unsupportedRotation (kind : OpKind)
  | notRotation (kind : OpKind)
  | angleExpected (found : Value)
  | anglesExpected (found : Value)
  deriving DecidableEq

/-- The wording of a data error. -/
def DataError.message : DataError → String
  | unknownOp name => "unknown transform op: " ++ name
  | unsupportedRotation kind => "unsupported rotation encoding: " ++ kind.token
  | unknownType name => "invalid data: unknown value type: " ++ name
  | notRotation kind => "invalid data: " ++ kind.token ++ " is not a rotation"
  | angleExpected found => "invalid data: expected scalar rotation, got " ++ found.text
  | anglesExpected found => "invalid data: expected 3-axis rotation, got " ++ found.text

/-! ## Stores -/

/-- What a store was asked for and does not have. -/
inductive Missing where
  | entity (id : EntityId)
  | named (name : String) (id : EntityId)
  | opAttribute (name : String) (id : EntityId)
  deriving DecidableEq

/-- The wording of what is missing. -/
def Missing.message (label : EntityId → String) : Missing → String
  | entity id => "entity " ++ label id
  | named name id => "attribute " ++ name ++ " on " ++ label id
  | opAttribute name id => "op attribute " ++ name ++ " on " ++ label id

/-- A store that cannot answer. -/
inductive StoreError where
  | notFound (what : Missing)
  /-- A value of another type than its attribute declares. -/
  | typeMismatch (name : String) (declared actual : ValueType)
  /-- The order attribute holds something else than tokens. -/
  | orderMismatch (found : Value)
  | pathTaken (path : String)
  | data (error : DataError)
  /-- Stored bytes that are no value. -/
  | unreadable
  /-- A sample at a time that is not a number. -/
  | timeless
  deriving DecidableEq

/-- The wording of a store error. -/
def StoreError.message (label : EntityId → String) : StoreError → String
  | notFound what => "not found: " ++ what.message label
  | typeMismatch name declared actual =>
    "type mismatch on " ++ name ++ ": declared " ++ declared.name ++ ", got " ++ actual.name
  | orderMismatch found =>
    "type mismatch on " ++ Op.orderName ++ ": declared " ++ ValueType.tokenArray.name ++ ", got "
      ++ found.text
  | pathTaken path => "entity collision: " ++ path
  | data error => "core error: " ++ error.message
  | unreadable => "serialization error: the stored bytes are no value"
  | timeless => "the time of a sample is not a number"

/-! ## Edits -/

/-- A write that an edit needs and the store refused. -/
inductive StructuralCause where
  | revertRefused (name : String) (id : EntityId)
  | addRefused (position : Position) (kind : OpKind) (id : EntityId)
  | noPosition (op : Op)
  | orderRefused (id : EntityId)
  | writeRefused (name : String) (id : EntityId)
  /-- A failure that a handler of the host reports. -/
  | reported (text : String)
  deriving DecidableEq

/-- The wording of a refused write. -/
def StructuralCause.message (label : EntityId → String) : StructuralCause → String
  | revertRefused name id => "store refused to revert " ++ name ++ " on " ++ label id
  | addRefused position kind id =>
    "could not add " ++ position.name ++ " op (" ++ kind.token ++ ") to " ++ label id
  | noPosition op => op.name ++ " has no position in the transform stack"
  | orderRefused id => "could not write op order on " ++ label id
  | writeRefused name id => "could not write " ++ name ++ " on " ++ label id
  | reported text => text

/-- A value that a position cannot take or give. -/
inductive ValueCause where
  | notFinite (value : Vector3)
  | vectorExpected (found : Value)
  | vectorExpectedIn (name : String) (found : Value)
  | shear
  | inversePosition (position : Position)
  deriving DecidableEq

/-- The wording of a rejected value. -/
def ValueCause.message : ValueCause → String
  | notFinite value => "non-finite value " ++ value.text
  | vectorExpected found => "expected a 3-vector, got " ++ found.text
  | vectorExpectedIn name found => name ++ " holds " ++ found.text ++ ", expected a 3-vector"
  | shear => "shear is a matrix op, not a 3-vector"
  | inversePosition position =>
    position.name ++ " mirrors its forward op and has no value of its own"

/-- An edit or a read of a transform stack that failed. -/
inductive EditError where
  | store (error : StoreError)
  | data (error : DataError)
  | structural (cause : StructuralCause)
  | rejected (cause : ValueCause)
  | noEntity (id : EntityId)
  deriving DecidableEq

/-- The wording of an edit error. -/
def EditError.message (label : EntityId → String) : EditError → String
  | store error => "storage error: " ++ error.message label
  | data error => "core error: " ++ error.message
  | structural cause => "transform stack modification failed: " ++ cause.message label
  | rejected cause => "value rejected: " ++ cause.message
  | noEntity id => "entity not found: " ++ label id

/-- Lift a data error into a store's answer. -/
def StoreError.ofData {α : Type} (answer : Except DataError α) : Except StoreError α :=
  answer.mapError .data

/-- Lift a data error into an edit's answer. -/
def EditError.ofData {α : Type} (answer : Except DataError α) : Except EditError α :=
  answer.mapError .data

/-- Lift a store error into an edit's answer. -/
def EditError.ofStore {α : Type} (answer : Except StoreError α) : Except EditError α :=
  answer.mapError .store

end TransformStack
