import TransformStack.Number.Binary
import TransformStack.Value.Vector

/-!
# Attribute values

The values that attributes hold, the types that attributes declare, and the views of a value as a
vector, a scalar, a matrix or a list of tokens. Equality of values is equality of bits: a NaN
equals itself, and the two zeros differ.
-/

namespace TransformStack

/-- How many bits the numbers of a value have. -/
inductive Precision where
  | float
  | double
  deriving DecidableEq

/-- The declared type of an attribute. -/
inductive ValueType where
  | float
  | double
  | float3
  | double3
  | quatf
  | matrix4d
  | tokenArray
  deriving DecidableEq

namespace ValueType

/-- All types. -/
def all : List ValueType := [float, double, float3, double3, quatf, matrix4d, tokenArray]

/-- The name under which a type is declared. -/
def name : ValueType → String
  | float => "float"
  | double => "double"
  | float3 => "float3"
  | double3 => "double3"
  | quatf => "quatf"
  | matrix4d => "matrix4d"
  | tokenArray => "token[]"

/-- The type of a name. -/
def ofName? (name : String) : Option ValueType := all.find? (·.name == name)

/-- The precision of the ops whose attribute has this type. -/
def precision : ValueType → Precision
  | double | double3 | matrix4d => .double
  | float | float3 | quatf | tokenArray => .float

end ValueType

/-- A vector of the scene, such as a translation, angles about the three axes, or a scale. -/
abbrev Vector3 := Vec3 Binary64

namespace Vector3

/-- The zero vector. -/
def zero : Vector3 := ⟨.zero, .zero, .zero⟩

/-- The vector of ones. -/
def one : Vector3 := ⟨.one, .one, .one⟩

/-- Whether every component is finite. -/
def isFinite (v : Vector3) : Bool := v.x.isFinite && v.y.isFinite && v.z.isFinite

/-- Whether the components are numerically equal. -/
def numericEq (v w : Vector3) : Bool :=
  v.x.numericEq w.x && v.y.numericEq w.y && v.z.numericEq w.z

/-- Whether no component differs by more than `tolerance`. -/
def approxEq (v w : Vector3) (tolerance : Binary64) : Bool :=
  let near (a b : Binary64) : Bool := (a.toFloat - b.toFloat).abs ≤ tolerance.toFloat
  near v.x w.x && near v.y w.y && near v.z w.z

end Vector3

/-- Four rows of four numbers. -/
abbrev Matrix4 := Vec4 (Vec4 Binary64)

/-- What an attribute can hold. -/
inductive Value where
  /-- No value. -/
  | empty
  | float (x : Binary32)
  | double (x : Binary64)
  | float3 (v : Vec3 Binary32)
  | double3 (v : Vec3 Binary64)
  /-- A quaternion, the real part first. -/
  | quatf (q : Vec4 Binary32)
  | matrix4d (m : Matrix4)
  | tokens (names : List String)
  deriving DecidableEq, Inhabited

namespace Value

/-- The type that a value has; the empty value has none. -/
def type? : Value → Option ValueType
  | empty => none
  | float _ => some .float
  | double _ => some .double
  | float3 _ => some .float3
  | double3 _ => some .double3
  | quatf _ => some .quatf
  | matrix4d _ => some .matrix4d
  | tokens _ => some .tokenArray

/-- Whether a value is the empty one. -/
def isEmpty : Value → Bool
  | empty => true
  | _ => false

/-- A vector stored at a precision. -/
def ofVector (v : Vector3) : Precision → Value
  | .float => float3 (v.map Binary64.toBinary32)
  | .double => double3 v

/-- A number stored at a precision. -/
def ofScalar (x : Binary64) : Precision → Value
  | .float => float x.toBinary32
  | .double => double x

/-- A value of three numbers as a vector. -/
def toVector? : Value → Option Vector3
  | float3 v => some (v.map Binary32.toBinary64)
  | double3 v => some v
  | _ => none

/-- A value of one number as that number. -/
def toScalar? : Value → Option Binary64
  | float x => some x.toBinary64
  | double x => some x
  | _ => none

/-- A matrix value as a matrix. -/
def toMatrix? : Value → Option Matrix4
  | matrix4d m => some m
  | _ => none

/-- A value of tokens as their list. -/
def toTokens? : Value → Option (List String)
  | tokens names => some names
  | _ => none

end Value

end TransformStack
