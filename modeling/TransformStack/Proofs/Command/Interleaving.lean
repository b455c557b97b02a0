import TransformStack.Proofs.Command.Lifecycle
import TransformStack.Proofs.Store.Order
import Mathlib.Logic.Function.Basic

/-!
# Two commands on one layer

A host holds two commands for one entity and calls them in any order. A command that makes its op
takes back the whole order when it is undone, so the ops that were made after it are lost with it.
The runs considered here are those in which the command that was applied last is undone first. Where
the order had an op for one of the commands from the beginning, there is no need for that.
-/

namespace TransformStack

/-- One of two commands. -/
inductive Side where
  | first
  | second
  deriving DecidableEq

/-- Two commands of a host on one layer, and which of them was applied last. -/
structure Duo where
  commands : Side → Command
  layer : Layer
  latest : Side := .first

namespace Duo

/-- Call one of the commands. -/
def call (d : Duo) (side : Side) (call : CommandCall) : Duo :=
  let done := (d.commands side).call { layer := d.layer } call
  { commands := Function.update d.commands side done.command
    layer := done.session.layer
    latest :=
      if (d.commands side).state.isApplied = false ∧ done.command.state.isApplied then side
      else d.latest }

/-- If both commands stand applied, the command of the side was applied last. -/
def Newest (d : Duo) (side : Side) : Prop :=
  (∀ side', (d.commands side').state.isApplied) → d.latest = side

/-- The order has an op at the position of one of the commands. -/
def Settled (d : Duo) : Prop :=
  ∃ side order, d.layer.store.order (d.commands side).entity = .ok order ∧
    (order.at? (d.commands side).recipe.position).isSome

/-- A run of calls on the commands, whether they succeed or not. Unless the order had an op for one
of the commands at first, the command that was applied last is undone first. -/
inductive Run (d : Duo) : Duo → Prop where
  | refl : Run d d
  | call {d' : Duo} (h : Run d d') (side : Side) (call : CommandCall)
      (hnewest : call = .undo → d.Settled ∨ d'.Newest side) : Run d (d'.call side call)

/-- The order can be read, all of its ops stand on attributes, and it has the op of each command
that stands applied. -/
def Sound (d : Duo) (id : EntityId) : Prop :=
  ∃ order, d.layer.store.order id = .ok order ∧ (∀ op ∈ order.ops, d.layer.store.Backs id op) ∧
    ∀ side, (d.commands side).state.isApplied →
      ∃ op, (d.commands side).op = some op ∧ op ∈ order.ops

end Duo

end TransformStack
