import TransformStack.Failure

/-!
# Names that must be read

Readers of names that say why a name cannot be read: the op of a name, the kind of op that an
attribute's name tells, and the type of a name. An unknown op is reported without the mark of
inverted ops.
-/

namespace TransformStack

/-- The op of a name, for an attribute of the given precision. -/
def Op.read (name : String) (precision : Precision) : Except DataError Op :=
  match Op.parse? name precision with
  | some op => .ok op
  | none => .error (.unknownOp (Op.splitInverse name).1)

/-- The kind of op that the name of an attribute tells. -/
def OpKind.ofAttributeName (name : String) : Except DataError OpKind :=
  match Op.parts? name with
  | some (kind, _) => .ok kind
  | none => .error (.unknownOp name)

/-- The type of a name. -/
def ValueType.read (name : String) : Except DataError ValueType :=
  match ValueType.ofName? name with
  | some type => .ok type
  | none => .error (.unknownType name)

end TransformStack
