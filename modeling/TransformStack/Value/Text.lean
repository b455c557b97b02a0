import TransformStack.Number.Decimal
import TransformStack.Text.Quoted
import TransformStack.Value.Basic

/-!
# Values in messages

The form in which messages show a value: its kind, and its content between parentheses.
-/

namespace TransformStack

/-- Numbers between brackets. -/
private def numberList {α : Type} (text : α → String) (xs : List α) : String :=
  Text.bracketed (xs.map text)

/-- A value as messages show it. -/
def Value.text : Value → String
  | empty => "Empty"
  | float x => "Float(" ++ x.text ++ ")"
  | double x => "Double(" ++ x.text ++ ")"
  | float3 v => "Vec3f(" ++ numberList Binary32.text v.toList ++ ")"
  | double3 v => "Vec3d(" ++ numberList Binary64.text v.toList ++ ")"
  | quatf q => "Quatf(" ++ numberList Binary32.text q.toList ++ ")"
  | matrix4d m => "Matrix4d(" ++ numberList (numberList Binary64.text ·.toList) m.toList ++ ")"
  | tokens names => "TokenArray(" ++ Text.bracketed (names.map Text.quoted) ++ ")"

/-- A vector as messages show it, with the names of its components. -/
def Vector3.text (v : Vector3) : String :=
  "Vector3d \x7b x: " ++ v.x.text ++ ", y: " ++ v.y.text ++ ", z: " ++ v.z.text ++ " \x7d"

end TransformStack
