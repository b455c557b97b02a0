import TransformStack.Store.Order

/-!
# The layer that edits write to

A layer is a store together with refusals that its host has announced: it can refuse to write any
order, and it can refuse one of the ops that are added from now on. Refusals come on top of what
the store itself refuses, and a refused write changes nothing in the store.
-/

namespace TransformStack

/-- The structural writes that a layer refuses. -/
structure Refusals where
  /-- Refuse every order. -/
  orders : Bool := false
  /-- Refuse the op added after so many others. -/
  addAfter : Option Nat := none
  deriving DecidableEq

/-- A store and the refusals on top of it. -/
structure Layer where
  store : Store
  refusals : Refusals := {}

namespace Layer

/-- Carry the outcome of a write of the store. -/
def onStore (layer : Layer) (write : Except StoreError (Option Store)) :
    Except StoreError (Option Layer) :=
  (·.map ({ layer with store := · })) <$> write

/-- Write the order of an entity. -/
def setOrder (layer : Layer) (id : EntityId) (order : OpOrder) :
    Except StoreError (Option Layer) :=
  if layer.refusals.orders then .ok none else layer.onStore (layer.store.setOrder id order)

/-- The refusals once one more op has been added, and whether that op is refused. -/
def countAdd (refusals : Refusals) : Refusals × Bool :=
  match refusals.addAfter with
  | none => (refusals, false)
  | some 0 => ({ refusals with addAfter := none }, true)
  | some (n + 1) => ({ refusals with addAfter := some n }, false)

/-- Append an op to the order of an entity, and tell whether it was appended. Every attempt counts
towards the op that is to be refused, so the layer comes back in any case. -/
def addOp (layer : Layer) (id : EntityId) (op : Op) : Except StoreError Bool × Layer :=
  let (refusals, refused) := countAdd layer.refusals
  if refused then (.ok false, { layer with refusals })
  else
    match layer.store.addOp id op with
    | .ok (some store) => (.ok true, { store, refusals })
    | .ok none => (.ok false, { layer with refusals })
    | .error e => (.error e, { layer with refusals })

/-- Announce the refusal of every order, or withdraw it. -/
def refuseOrders (layer : Layer) (on : Bool) : Layer :=
  { layer with refusals := { layer.refusals with orders := on } }

/-- Announce the refusal of the op that is added after `n` others. -/
def refuseAddAfter (layer : Layer) (n : Nat) : Layer :=
  { layer with refusals := { layer.refusals with addAfter := some n } }

/-- Withdraw all refusals. -/
def heal (layer : Layer) : Layer := { layer with refusals := {} }

end Layer

end TransformStack
