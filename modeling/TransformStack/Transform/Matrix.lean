import TransformStack.Transform.Rotation

/-!
# Matrices of transforms

A matrix acts on rows and has its translation in the last row. It is composed of a scale, a
rotation and a translation, in this order, and split into them again; what a split leaves out is
shear.
-/

namespace TransformStack

/-- A translation, a rotation as angles about x, y and z, and a scale. -/
structure Placement where
  translation : Vector3
  rotation : Vector3
  scale : Vector3
  deriving DecidableEq

namespace Placement

/-- The matrix of a placement. -/
def toMatrix (p : Placement) : Matrix4 :=
  let r := Rotation.compose Rotation.xyz p.rotation
  let row (axis : Axis) : Vec4 Binary64 :=
    let entry (column : Axis) : Binary64 :=
      .ofFloat ((p.scale.get axis).toFloat * r.entry column axis)
    ⟨entry .x, entry .y, entry .z, .zero⟩
  ⟨row .x, row .y, row .z, ⟨p.translation.x, p.translation.y, p.translation.z, .one⟩⟩

/-- The length of a row. -/
def length (row : Vec3 Float) : Float :=
  (row.x * row.x + row.y * row.y + row.z * row.z).sqrt

/-- A row no longer than this has no direction. -/
def shortest : Float := Float.ofBits 0x3cb0000000000000

/-- A row scaled to length one; a row without direction becomes the axis it belongs to. -/
def direction (axis : Axis) (row : Vec3 Float) : Vec3 Float :=
  if shortest < length row then row.map (· / length row)
  else Vec3.ofAxes fun a => if a = axis then 1.0 else 0.0

/-- The placement of a matrix: the last row, the directions of the others as a rotation, and their
lengths. -/
def ofMatrix (m : Matrix4) : Placement :=
  let numbers (row : Vec4 Binary64) : Vec3 Binary64 := ⟨row.a, row.b, row.c⟩
  let rows : Vec3 (Vec3 Float) :=
    (⟨numbers m.a, numbers m.b, numbers m.c⟩ : Vec3 (Vec3 Binary64)).map (·.map Binary64.toFloat)
  let directions : Matrix3 := Vec3.ofAxes fun axis => direction axis (rows.get axis)
  { translation := numbers m.d
    rotation := Rotation.decompose Rotation.xyz
      (Matrix3.ofEntries fun row column => directions.entry column row)
    scale := rows.map fun row => .ofFloat (length row) }

end Placement

end TransformStack
