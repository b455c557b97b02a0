import TransformStack.Edit.Transaction

/-!
# Arranging the ops of an entity

An edit needs an op at a position. If there is none, it is added as its recipe says, together with
the other half of a pivot pair, and the order is sorted by position. Sorting keeps the order of
the ops at one position, and fails on an op that is foreign to the canonical stack.
-/

namespace TransformStack

/-- How the op at a position is made when it is missing. -/
structure Recipe where
  position : Position
  kind : OpKind
  precision : Precision
  deriving DecidableEq

/-- The op of a recipe, upright or inverted. -/
def Recipe.op (recipe : Recipe) (inverse : Bool) : Op :=
  .make recipe.kind recipe.precision recipe.position.suffix inverse

/-- The ops at each position in turn. -/
def Op.byPosition (ops : List Op) : List Op :=
  Position.all.flatMap fun position => ops.filter (Position.ofOp? · = some position)

namespace Arrangement

/-- Add the op of a recipe, upright or inverted, to the order of an entity. -/
def add (id : EntityId) (recipe : Recipe) (inverse : Bool) : Steps Op := do
  let op := recipe.op inverse
  Steps.require (.addRefused recipe.position recipe.kind id) (← Steps.tell (·.addOp id op))
  return op

/-- Sort the order of an entity by position. -/
def sort (id : EntityId) : Steps Unit := do
  let order ← Steps.ask (·.order id)
  match order.ops.find? (Position.ofOp? · = none) with
  | some foreignOp => throw (.structural (.noPosition foreignOp))
  | none =>
    let sorted := { order with ops := Op.byPosition order.ops }
    Steps.require (.orderRefused id) (← Steps.tell (·.setOrder id sorted))

/-- Add the other half of a pivot pair, unless an order has it. -/
def addCompanion (id : EntityId) (recipe : Recipe) (order : OpOrder) : Steps Unit := do
  match recipe.position.companion with
  | none => return
  | some companion =>
    if (order.at? companion).isSome then return
    let _ ← add id recipe companion.isInverse

/-- The op at the position of a recipe, which is added if it is missing. -/
def ensure (id : EntityId) (recipe : Recipe) : Steps Op := do
  let order ← Steps.ask (·.order id)
  match order.at? recipe.position with
  | some op => return op
  | none =>
    let op ← add id recipe recipe.position.isInverse
    addCompanion id recipe order
    sort id
    return op

end Arrangement

end TransformStack
