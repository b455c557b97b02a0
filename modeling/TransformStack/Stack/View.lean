import TransformStack.Command.Matrix

/-!
# Views of a transform stack

A view shows the stack of one entity at one time: its ops, the vectors at its positions, and the
commands that edit them. What is not there reads as having no effect. Every command is offered on
the condition that the attribute it will write may be edited.
-/

namespace TransformStack

/-- A command, or what bars the edit. -/
abbrev Offer (κ : Type) := Except EditBar κ

/-- The transform stack of an entity at a time. -/
structure StackView where
  entity : EntityId
  time : TimeCode
  deriving DecidableEq

namespace StackView

variable (view : StackView) (s : Store)

/-- The order of the ops. -/
def order : Except EditError OpOrder := EditError.ofStore (s.order view.entity)

/-- The first op at a position. -/
def op? (position : Position) : Except EditError (Option Op) :=
  (·.at? position) <$> view.order s

/-! ## Reading -/

/-- What a position without a value reads as. -/
def rest : Position → Vector3
  | .scale => .one
  | _ => .zero

/-- The value that the op at a position applies. -/
def value? (position : Position) : Except EditError (Option (Op × Value)) := do
  match ← view.op? s position with
  | none => return none
  | some op =>
    return (op, ·) <$> (← EditError.ofStore (s.value? view.entity op.attributeName view.time))

/-- The vector at a position. -/
def vector (position : Position) : Except EditError Vector3 := do
  match ← view.value? s position with
  | none => return rest position
  | some (op, value) =>
    match value.toVector? with
    | some v => return v
    | none => throw (.rejected (.vectorExpectedIn op.attributeName value))

/-- The rotation, as angles about x, y and z, whatever form is stored. -/
def rotation : Except EditError Vector3 := do
  match ← view.value? s .rotate with
  | none => return rest .rotate
  | some (op, value) =>
    EditError.ofData do
      let form ← Rotation.formOf op.kind
      form.load value

/-! ## Editing -/

/-- What bars an edit at a position. Where no op is yet, the order will be edited. -/
def editBar? (position : Position) : Except EditError (Option EditBar) := do
  let name :=
    match ← view.op? s position with
    | some op => op.attributeName
    | none => Op.orderName
  EditError.ofStore (s.editBar? view.entity name)

/-- Offer a command, unless something bars edits at its position. -/
def offer (recipe : Recipe) (converter : Converter) (value : Vector3) :
    Except EditError (Offer Command) := do
  match ← view.editBar? s recipe.position with
  | some bar => return .error bar
  | none => return .ok (Command.withValue { entity := view.entity, recipe, converter } value)

/-- Offer a command for a vector that is stored as it is. -/
def offerVector (position : Position) (precision : Precision) (value : Vector3) :
    Except EditError (Offer Command) :=
  view.offer s ⟨position, position.defaultKind, precision⟩ .vector value

/-- Offer a command for angles. An op that is there keeps its kind and precision, and must be of a
kind that stores angles. -/
def offerRotation (position : Position) (value : Vector3) :
    Except EditError (Offer Command) := do
  match ← view.op? s position with
  | none => view.offer s ⟨position, position.defaultKind, .float⟩ .rotation value
  | some op =>
    let _ ← EditError.ofData (Rotation.formOf op.kind)
    view.offer s ⟨position, op.kind, op.precision⟩ .rotation value

/-- Offer a command for the vector at any position that has one. Translations are stored with
double precision, other vectors with single. -/
def offerAt (position : Position) (value : Vector3) : Except EditError (Offer Command) :=
  match position with
  | .rotate | .rotateAxis => view.offerRotation s position value
  | .translate => view.offerVector s position .double value
  | .shear => .error (.rejected .shear)
  | position =>
    if position.isInverse then .error (.rejected (.inversePosition position))
    else view.offerVector s position .float value

/-- Offer a command for a whole matrix: the offers for its translation, rotation and scale, up to
the first that is barred. -/
def offerMatrix (matrix : Matrix4) : Except EditError (Offer MatrixCommand) := do
  let p := Placement.ofMatrix matrix
  match ← view.offerAt s .translate p.translation with
  | .error bar => return .error bar
  | .ok translate =>
    match ← view.offerAt s .rotate p.rotation with
    | .error bar => return .error bar
    | .ok rotate =>
      match ← view.offerAt s .scale p.scale with
      | .error bar => return .error bar
      | .ok scale => return .ok { entity := view.entity, translate, rotate, scale }

end StackView

end TransformStack
