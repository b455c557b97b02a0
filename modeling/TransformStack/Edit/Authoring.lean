import TransformStack.Edit.Layer

/-!
# Authoring ops by name

Ops are added to the order of an entity as their names say, one after the other and without a
journal. The plain translation gets double precision and every other op single.
-/

namespace TransformStack

/-- Why an op could not be authored. -/
inductive AuthorError where
  | data (error : DataError)
  | store (error : StoreError)
  | refused (name : String)
  deriving DecidableEq

/-- The wording of why an op could not be authored. -/
def AuthorError.message (label : EntityId → String) : AuthorError → String
  | data error => error.message
  | store error => error.message label
  | refused name => "could not author " ++ name

/-- The op to author for a name. -/
def Op.authored (name : String) : Except DataError Op := do
  let op ← Op.read name .float
  let precision := if op.kind = .translate ∧ op.suffix = none then .double else .float
  return .make op.kind precision op.suffix op.inverse

/-- Author ops by name, up to the first that cannot be; those before it stay. -/
def Layer.author (layer : Layer) (id : EntityId) :
    List String → Except AuthorError (List Op) × Layer
  | [] => (.ok [], layer)
  | name :: names =>
    match Op.authored name with
    | .error e => (.error (.data e), layer)
    | .ok op =>
      match layer.addOp id op with
      | (.error e, layer) => (.error (.store e), layer)
      | (.ok false, layer) => (.error (.refused name), layer)
      | (.ok true, layer) =>
        let (others, layer) := layer.author id names
        ((op :: ·) <$> others, layer)

end TransformStack
