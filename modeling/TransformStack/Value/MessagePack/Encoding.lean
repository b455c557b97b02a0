import TransformStack.Value.Basic
import TransformStack.Value.MessagePack.Kind
import TransformStack.Value.MessagePack.Library

/-!
# Values in MessagePack

A library writes a value as its kind with the numbers or the strings that go with it, and reads it
back the same way. Nothing goes with the empty value.
-/

namespace TransformStack

open MessagePack

namespace MessagePack

variable (library : Library)

/-- Numbers wanted in the 32-bit format. -/
def Item.single : Item Binary32 where
  read := library.readSingle
  ofByte? byte := some (.ofInt byte.toNat)

/-- Numbers wanted in the 64-bit format. -/
def Item.double : Item Binary64 where
  read := library.readDouble
  ofByte? byte := some (.ofInt byte.toNat)

/-- Strings, which no byte stands for. -/
def Item.string : Item String where
  read := library.readString
  ofByte? _ := none

/-- An array of three items. -/
def readVec3 {α : Type} (item : Item α) : Reader (Vec3 α) := do
  match ← library.readExactly 3 item with
  | [x, y, z] => return ⟨x, y, z⟩
  | _ => failure

/-- An array of four items. -/
def readVec4 {α : Type} (item : Item α) : Reader (Vec4 α) := do
  match ← library.readExactly 4 item with
  | [a, b, c, d] => return ⟨a, b, c, d⟩
  | _ => failure

/-- The rows of a matrix, which no byte stands for. -/
def Item.row : Item (Vec4 Binary64) where
  read := readVec4 library (.double library)
  ofByte? _ := none

/-- What goes with the values of a kind. -/
def Kind.content : Kind → Content Value
  | .empty => .nothing .empty
  | .float => .item (.float <$> library.readSingle)
  | .double => .item (.double <$> library.readDouble)
  | .float3 => .item (.float3 <$> readVec3 library (.single library))
  | .double3 => .item (.double3 <$> readVec3 library (.double library))
  | .quatf => .item (.quatf <$> readVec4 library (.single library))
  | .matrix4d => .item (.matrix4d <$> readVec4 library (.row library))
  | .tokens => .item (.tokens <$> library.readArray (.string library))

end MessagePack

namespace Value

variable (library : Library)

/-- The bytes of a value. -/
def write : Value → Written
  | .empty => library.writeBare Kind.empty.name
  | .float x => library.writeEntry Kind.float.name (library.writeSingle x)
  | .double x => library.writeEntry Kind.double.name (library.writeDouble x)
  | .float3 v =>
    library.writeEntry Kind.float3.name (library.writeArray library.writeSingle v.toList)
  | .double3 v =>
    library.writeEntry Kind.double3.name (library.writeArray library.writeDouble v.toList)
  | .quatf q =>
    library.writeEntry Kind.quatf.name (library.writeArray library.writeSingle q.toList)
  | .matrix4d m =>
    library.writeEntry Kind.matrix4d.name
      (library.writeArray (library.writeArray library.writeDouble ·.toList) m.toList)
  | .tokens names =>
    library.writeEntry Kind.tokens.name (library.writeArray library.writeString names)

/-- Reads a value. -/
def reader : Reader Value := library.readKind Kind.ofName? Kind.ofPlace? (Kind.content library)

/-- The value at the front of the bytes, if there is one. -/
def read? (bytes : List UInt8) : Option Value := library.run (reader library) bytes

end Value

end TransformStack
