import TransformStack.Store.Writing

/-!
# The op order of an entity

The order is a list of op names in one attribute. A token at its front detaches the stack from the
stacks above it; the same token further back says nothing. Each name must belong to an attribute
of the entity, whose declared type tells the op's precision.
-/

namespace TransformStack

/-- The ops of an entity in order, and whether they are detached from the stacks above. -/
structure OpOrder where
  ops : List Op
  resets : Bool
  deriving DecidableEq

/-- The first op at a position. -/
def OpOrder.at? (order : OpOrder) (position : Position) : Option Op :=
  order.ops.find? (Position.ofOp? · = some position)

/-- The tokens that spell an order. -/
def OpOrder.tokens (order : OpOrder) : List String :=
  (if order.resets then [Op.resetToken] else []) ++ order.ops.map Op.name

namespace Store

/-- The tokens in the order attribute of an entity, if it holds any. -/
def orderTokens? (s : Store) (id : EntityId) : Except StoreError (Option (List String)) := do
  match ← s.authored? id Op.orderName .default with
  | none => return none
  | some (.tokens names) => return some names
  | some found => throw (.orderMismatch found)

/-- The op of a token in the order of an entity. -/
def readOp (s : Store) (id : EntityId) (token : String) : Except StoreError Op := do
  let name := (Op.splitInverse token).1
  match ← s.record? id name with
  | none => throw (.notFound (.opAttribute name id))
  | some found => StoreError.ofData (Op.read token found.type.precision)

/-- The order of an entity. -/
def order (s : Store) (id : EntityId) : Except StoreError OpOrder := do
  let _ ← s.entity id
  let tokens := (← s.orderTokens? id).getD []
  let ops ← (tokens.filter (· ≠ Op.resetToken)).mapM (s.readOp id)
  return { ops, resets := tokens.head? = some Op.resetToken }

/-- Put tokens into the order attribute of an entity, which is created for them if need be. -/
def putTokens (s : Store) (id : EntityId) (tokens : List String) : Store :=
  s.alter id Op.orderName fun a =>
    some { a.getD (.ofType .tokenArray) with fixed := some (.value (.tokens tokens)) }

/-- Write the order of an entity. -/
def setOrder (s : Store) (id : EntityId) (order : OpOrder) : Except StoreError (Option Store) := do
  let _ ← s.entity id
  if s.readOnly then return none
  let _ ← s.record? id Op.orderName
  return some (s.putTokens id order.tokens)

/-- Append an op to the order of an entity, creating its attribute if need be. The store refuses
when the order is locked or has the op already, and when the attribute has another type. -/
def addOp (s : Store) (id : EntityId) (op : Op) : Except StoreError (Option Store) := do
  let _ ← s.entity id
  if s.readOnly then return none
  if (← s.record? id Op.orderName).any (·.locked) then return none
  let tokens := (← s.orderTokens? id).getD []
  if op.name ∈ tokens then return none
  if (← s.record? id op.attributeName).any (·.type ≠ op.valueType) then return none
  return some ((s.declare id op.attributeName op.valueType).putTokens id (tokens ++ [op.name]))

end Store

end TransformStack
