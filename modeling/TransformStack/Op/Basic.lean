import TransformStack.Value.Basic

/-!
# Transform ops and their names

A transform stack is a list of ops. An op applies the value of one attribute, possibly inverted.
The attribute's name tells the kind of the op and, after a colon, an optional suffix; the op's own
name is that name, with a mark in front when the op is inverted. Parsing and printing of op names
are each other's inverse: `parse` gives `op` exactly on the text `op.name`, up to the precision,
which a name does not tell.
-/

namespace TransformStack

/-- What an op does. -/
inductive OpKind where
  | translate
  | scale
  | rotateX
  | rotateY
  | rotateZ
  | rotateXYZ
  | rotateXZY
  | rotateYXZ
  | rotateYZX
  | rotateZXY
  | rotateZYX
  | orient
  | transform
  deriving DecidableEq

namespace OpKind

/-- All kinds. -/
def all : List OpKind :=
  [translate, scale, rotateX, rotateY, rotateZ, rotateXYZ, rotateXZY, rotateYXZ, rotateYZX,
    rotateZXY, rotateZYX, orient, transform]

/-- The word for a kind in op names. -/
def token : OpKind → String
  | translate => "translate"
  | scale => "scale"
  | rotateX => "rotateX"
  | rotateY => "rotateY"
  | rotateZ => "rotateZ"
  | rotateXYZ => "rotateXYZ"
  | rotateXZY => "rotateXZY"
  | rotateYXZ => "rotateYXZ"
  | rotateYZX => "rotateYZX"
  | rotateZXY => "rotateZXY"
  | rotateZYX => "rotateZYX"
  | orient => "orient"
  | transform => "transform"

/-- The kind of a word. -/
def ofToken? (token : String) : Option OpKind := all.find? (·.token == token)

/-- Whether ops of this kind rotate. -/
def isRotation : OpKind → Bool
  | translate | scale | transform => false
  | _ => true

/-- The type of the attribute that an op of this kind applies. -/
def valueType : OpKind → Precision → ValueType
  | rotateX, .float | rotateY, .float | rotateZ, .float => .float
  | rotateX, .double | rotateY, .double | rotateZ, .double => .double
  | orient, _ => .quatf
  | transform, _ => .matrix4d
  | _, .float => .float3
  | _, .double => .double3

end OpKind

/-- A transform op: the kind and suffix that name its attribute, the precision of that attribute,
and whether the op applies the inverse. -/
structure Op where
  kind : OpKind
  suffix : Option String
  precision : Precision
  inverse : Bool
  deriving DecidableEq

namespace Op

/-- What the names of op attributes begin with. -/
def attributeMark : String := "xformOp:"

/-- What the names of inverted ops begin with. -/
def inverseMark : String := "!invert!"

/-- The token that, at the front of an order, detaches a stack from the stacks above it. -/
def resetToken : String := "!resetXformStack!"

/-- The attribute that holds the order of an entity's ops. -/
def orderName : String := "xformOpOrder"

/-- An op of a kind with a suffix, where an empty suffix counts as none. -/
def make (kind : OpKind) (precision : Precision) (suffix : Option String) (inverse : Bool) : Op :=
  { kind, precision, inverse, suffix := suffix.filter (· ≠ "") }

/-- The name of the attribute of a kind with a suffix. -/
def nameOf (kind : OpKind) (suffix : Option String) : String :=
  attributeMark ++ kind.token ++
    match suffix with
    | none => ""
    | some suffix => ":" ++ suffix

/-- The name of the attribute that the op applies. -/
def attributeName (op : Op) : String := nameOf op.kind op.suffix

/-- The name of the op in an order. -/
def name (op : Op) : String :=
  (if op.inverse then inverseMark else "") ++ op.attributeName

/-- The type of the attribute that the op applies. -/
def valueType (op : Op) : ValueType := op.kind.valueType op.precision

/-! ## Reading names -/

/-- What follows `mark` in a text that begins with it. -/
def rest? : List Char → List Char → Option (List Char)
  | [], text => some text
  | _ :: _, [] => none
  | m :: mark, c :: text => if m = c then rest? mark text else none

/-- The name of an op without the mark of inverted ops, and whether it had one. -/
def splitInverse (name : String) : String × Bool :=
  match rest? inverseMark.toList name.toList with
  | some rest => (String.ofList rest, true)
  | none => (name, false)

/-- The text before the first `mark`, and the text after it if there is one. -/
def cut (mark : Char) : List Char → List Char × Option (List Char)
  | [] => ([], none)
  | c :: text =>
    if c = mark then ([], some text)
    else
      let (before, after) := cut mark text
      (c :: before, after)

/-- The kind and the suffix that the name of an attribute tells. -/
def parts? (attributeName : String) : Option (OpKind × Option String) := do
  let body ← rest? attributeMark.toList attributeName.toList
  let (word, suffix) := cut ':' body
  let kind ← OpKind.ofToken? (String.ofList word)
  return (kind, suffix.map String.ofList)

/-- The op of a name, for an attribute of the given precision. -/
def parse? (name : String) (precision : Precision) : Option Op := do
  let (attributeName, inverse) := splitInverse name
  let (kind, suffix) ← parts? attributeName
  return { kind, suffix, precision, inverse }

end Op

end TransformStack
