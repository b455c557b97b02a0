import TransformStack.Op.Basic

/-!
# Positions of the canonical stack

The canonical stack has thirteen positions in a fixed order. An op stands at one of them or is
foreign to the canonical stack. Three pairs of positions belong together: a pivot and the inverse
that cancels it further down.
-/

namespace TransformStack

/-- A position of the canonical stack, first to last. -/
inductive Position where
  | translate
  | pivot
  | rotatePivotTranslate
  | rotatePivot
  | rotate
  | rotateAxis
  | rotatePivotInverse
  | scalePivotTranslate
  | scalePivot
  | shear
  | scale
  | scalePivotInverse
  | pivotInverse
  deriving DecidableEq

namespace Position

/-- All positions in order. -/
def all : List Position :=
  [translate, pivot, rotatePivotTranslate, rotatePivot, rotate, rotateAxis, rotatePivotInverse,
    scalePivotTranslate, scalePivot, shear, scale, scalePivotInverse, pivotInverse]

/-- How many positions come before this one. -/
def rank : Position → Nat
  | translate => 0
  | pivot => 1
  | rotatePivotTranslate => 2
  | rotatePivot => 3
  | rotate => 4
  | rotateAxis => 5
  | rotatePivotInverse => 6
  | scalePivotTranslate => 7
  | scalePivot => 8
  | shear => 9
  | scale => 10
  | scalePivotInverse => 11
  | pivotInverse => 12

/-- The name of a position in messages. -/
def name : Position → String
  | translate => "Translate"
  | pivot => "Pivot"
  | rotatePivotTranslate => "RotatePivotTranslate"
  | rotatePivot => "RotatePivot"
  | rotate => "Rotate"
  | rotateAxis => "RotateAxis"
  | rotatePivotInverse => "RotatePivotInverse"
  | scalePivotTranslate => "ScalePivotTranslate"
  | scalePivot => "ScalePivot"
  | shear => "Shear"
  | scale => "Scale"
  | scalePivotInverse => "ScalePivotInverse"
  | pivotInverse => "PivotInverse"

/-- The position of a name. -/
def ofName? (name : String) : Option Position := all.find? (·.name == name)

/-- The suffix of the op at a position. -/
def suffix : Position → Option String
  | translate | rotate | scale => none
  | pivot | pivotInverse => some "pivot"
  | rotatePivotTranslate => some "rotatePivotTranslate"
  | rotatePivot | rotatePivotInverse => some "rotatePivot"
  | rotateAxis => some "rotateAxis"
  | scalePivotTranslate => some "scalePivotTranslate"
  | scalePivot | scalePivotInverse => some "scalePivot"
  | shear => some "shear"

/-- The kind of op that a position gets when nothing stands there yet. -/
def defaultKind : Position → OpKind
  | rotate | rotateAxis => .rotateXYZ
  | shear => .transform
  | scale => .scale
  | _ => .translate

/-- Whether the op at a position applies the inverse of its attribute. -/
def isInverse : Position → Bool
  | rotatePivotInverse | scalePivotInverse | pivotInverse => true
  | _ => false

/-- The other half of a pivot pair. -/
def companion : Position → Option Position
  | pivot => some pivotInverse
  | pivotInverse => some pivot
  | rotatePivot => some rotatePivotInverse
  | rotatePivotInverse => some rotatePivot
  | scalePivot => some scalePivotInverse
  | scalePivotInverse => some scalePivot
  | _ => none

/-- Whether an op of this kind can stand at a position: any rotation at the rotate position, and
the default kind at the others. -/
def admits (position : Position) (kind : OpKind) : Bool :=
  match position with
  | rotate => kind.isRotation
  | _ => kind == position.defaultKind

/-- Whether an op stands at a position: kind, suffix and inversion are the position's. -/
def isPlaceOf (position : Position) (op : Op) : Bool :=
  position.admits op.kind && position.suffix == op.suffix && position.isInverse == op.inverse

/-- The position of an op; foreign ops have none. -/
def ofOp? (op : Op) : Option Position := all.find? (·.isPlaceOf op)

/-- The position of an op name, which does not hang on the op's precision. -/
def ofOpName? (name : String) : Option Position := do
  ofOp? (← Op.parse? name .float)

end Position

end TransformStack
