/-!
# Kinds of written value

What a written value says of itself before its content: one of eight kinds, each with a name and a
place.
-/

namespace TransformStack.MessagePack

/-- The kinds of value, the empty value among them, in the order of their places. -/
inductive Kind where
  | empty
  | float
  | double
  | float3
  | double3
  | quatf
  | matrix4d
  | tokens
  deriving DecidableEq

namespace Kind

/-- All kinds in order. -/
def all : List Kind := [empty, float, double, float3, double3, quatf, matrix4d, tokens]

/-- The name under which a kind is written. -/
def name : Kind → String
  | empty => "Empty"
  | float => "Float"
  | double => "Double"
  | float3 => "Vec3f"
  | double3 => "Vec3d"
  | quatf => "Quatf"
  | matrix4d => "Matrix4d"
  | tokens => "TokenArray"

/-- The kind of a name. -/
def ofName? (name : String) : Option Kind := all.find? (·.name == name)

/-- The kind at a place. -/
def ofPlace? (place : Nat) : Option Kind := all[place]?

end Kind

end TransformStack.MessagePack
