import TransformStack.Failure

/-!
# Rotations and how they are stored

The scene speaks of a rotation as angles in degrees about x, then y, then z. An op stores a
rotation in the form of its kind: one angle, the three angles as they are, or the three angles that
give the same rotation when the axes are taken in another order. The last form goes through the
rotation's matrix. There is no form for quaternions.
-/

namespace TransformStack

/-! ## Matrices of rotations -/

/-- Three rows of three numbers; the matrix acts on columns. -/
abbrev Matrix3 := Vec3 (Vec3 Float)

namespace Matrix3

/-- The entry in a row and a column. -/
def entry (m : Matrix3) (row column : Axis) : Float := (m.get row).get column

/-- The matrix whose entries are given. -/
def ofEntries (f : Axis → Axis → Float) : Matrix3 :=
  Vec3.ofAxes fun row => Vec3.ofAxes fun column => f row column

/-- The product, each entry summed from the first column on. -/
def mul (a b : Matrix3) : Matrix3 :=
  ofEntries fun row column =>
    a.entry row .x * b.entry .x column + a.entry row .y * b.entry .y column
      + a.entry row .z * b.entry .z column

end Matrix3

namespace Rotation

/-- Half a turn. -/
def pi : Float := Float.ofBits 0x400921fb54442d18

/-- An angle in degrees as an angle on the unit circle. -/
def radians (degrees : Float) : Float := degrees * (pi / 180.0)

/-- An angle on the unit circle in degrees. -/
def degrees (radians : Float) : Float := radians * (180.0 / pi)

/-- The rotation about one axis. -/
def about (axis : Axis) (angle : Float) : Matrix3 :=
  let s := (radians angle).sin
  let c := (radians angle).cos
  match axis with
  | .x => ⟨⟨1.0, 0.0, 0.0⟩, ⟨0.0, c, -s⟩, ⟨0.0, s, c⟩⟩
  | .y => ⟨⟨c, 0.0, s⟩, ⟨0.0, 1.0, 0.0⟩, ⟨-s, 0.0, c⟩⟩
  | .z => ⟨⟨c, -s, 0.0⟩, ⟨s, c, 0.0⟩, ⟨0.0, 0.0, 1.0⟩⟩

/-- The order in which the three axes are taken. -/
structure AxisOrder where
  first : Axis
  second : Axis
  third : Axis
  deriving DecidableEq

/-- Whether the axes are taken against their cyclic order. -/
def AxisOrder.isOdd (order : AxisOrder) : Bool := order.second != order.first.next

/-- Below this a cosine counts as zero: the middle rotation is a quarter turn, and the outer two
turn about one axis. -/
def lockThreshold : Float := 1e-12

/-- The rotation by the angle of each axis, the first axis of the order first. -/
def compose (order : AxisOrder) (angles : Vector3) : Matrix3 :=
  let turn (axis : Axis) : Matrix3 := about axis (angles.get axis).toFloat
  (turn order.third).mul ((turn order.second).mul (turn order.first))

/-- The angles that compose to a rotation, the axes taken in the given order. -/
def decompose (order : AxisOrder) (m : Matrix3) : Vector3 :=
  let i := order.first
  let j := order.second
  let k := order.third
  let cosine := (m.entry i i * m.entry i i + m.entry j i * m.entry j i).sqrt
  let locked := !decide (lockThreshold < cosine)
  let first :=
    if locked then (-m.entry j k).atan2 (m.entry j j) else (m.entry k j).atan2 (m.entry k k)
  let second := (-m.entry k i).atan2 cosine
  let third := if locked then 0.0 else (m.entry j i).atan2 (m.entry i i)
  let angle (a : Float) : Binary64 := .ofFloat (degrees (if order.isOdd then -a else a))
  Vec3.ofAxes fun axis =>
    if axis = i then angle first else if axis = j then angle second else angle third

/-- The order in which the scene speaks of angles. -/
def xyz : AxisOrder := ⟨.x, .y, .z⟩

/-! ## Stored forms -/

/-- The form in which an op stores a rotation. -/
inductive Form where
  /-- The angle about one axis. -/
  | single (axis : Axis)
  /-- The angles as they are. -/
  | verbatim
  /-- The angles of the same rotation, the axes taken in another order. -/
  | reordered (order : AxisOrder)
  deriving DecidableEq

/-- The form of each kind of op. Quaternions are not converted, and other kinds do not rotate. -/
def formOf : OpKind → Except DataError Form
  | .rotateX => .ok (.single .x)
  | .rotateY => .ok (.single .y)
  | .rotateZ => .ok (.single .z)
  | .rotateXYZ => .ok .verbatim
  | .rotateXZY => .ok (.reordered ⟨.x, .z, .y⟩)
  | .rotateYXZ => .ok (.reordered ⟨.y, .x, .z⟩)
  | .rotateYZX => .ok (.reordered ⟨.y, .z, .x⟩)
  | .rotateZXY => .ok (.reordered ⟨.z, .x, .y⟩)
  | .rotateZYX => .ok (.reordered ⟨.z, .y, .x⟩)
  | .orient => .error (.unsupportedRotation .orient)
  | kind => .error (.notRotation kind)

namespace Form

/-- The value that stores a rotation. -/
def store (form : Form) (angles : Vector3) (precision : Precision) : Value :=
  match form with
  | single axis => Value.ofScalar (angles.get axis) precision
  | verbatim => Value.ofVector angles precision
  | reordered order => Value.ofVector (decompose order (compose xyz angles)) precision

/-- The rotation that a value stores. -/
def load (form : Form) (value : Value) : Except DataError Vector3 :=
  match form with
  | single axis =>
    match value.toScalar? with
    | some angle => .ok (Vec3.ofAxes fun a => if a = axis then angle else .zero)
    | none => .error (.angleExpected value)
  | verbatim =>
    match value.toVector? with
    | some angles => .ok angles
    | none => .error (.anglesExpected value)
  | reordered order =>
    match value.toVector? with
    | some angles => .ok (decompose xyz (compose order angles))
    | none => .error (.anglesExpected value)

end Form

end Rotation

end TransformStack
