/-!
# Small fixed collections

Three components (vectors, and the rows of rotations) and four components (quaternions, and the
rows of matrices), in order.
-/

namespace TransformStack

/-- One of the three axes. -/
inductive Axis where
  | x
  | y
  | z
  deriving DecidableEq

/-- The axis after this one, cyclically. -/
def Axis.next : Axis → Axis
  | .x => .y
  | .y => .z
  | .z => .x

/-- Three components, one for each axis. -/
structure Vec3 (α : Type) where
  x : α
  y : α
  z : α
  deriving DecidableEq, Inhabited

namespace Vec3

variable {α β : Type}

/-- The component of an axis. -/
def get (v : Vec3 α) : Axis → α
  | .x => v.x
  | .y => v.y
  | .z => v.z

/-- The vector whose components are given axis by axis. -/
def ofAxes (f : Axis → α) : Vec3 α := ⟨f .x, f .y, f .z⟩

/-- Apply a function to each component. -/
def map (f : α → β) (v : Vec3 α) : Vec3 β := ⟨f v.x, f v.y, f v.z⟩

/-- The components in order. -/
def toList (v : Vec3 α) : List α := [v.x, v.y, v.z]

@[simp] theorem get_ofAxes (f : Axis → α) (a : Axis) : (ofAxes f).get a = f a := by
  cases a <;> rfl

end Vec3

/-- Four components in order. -/
structure Vec4 (α : Type) where
  a : α
  b : α
  c : α
  d : α
  deriving DecidableEq, Inhabited

namespace Vec4

variable {α β : Type}

/-- Apply a function to each component. -/
def map (f : α → β) (v : Vec4 α) : Vec4 β := ⟨f v.a, f v.b, f v.c, f v.d⟩

/-- The components in order. -/
def toList (v : Vec4 α) : List α := [v.a, v.b, v.c, v.d]

end Vec4

end TransformStack
