import TransformStack.Proofs.Command.Call
import TransformStack.Proofs.Edit.Steps

/-!
# Lifecycles

Seen by the host, a command goes through the stages of a life that began on some store. As long as
it stands applied, the store is the one it began on with the op of the recipe ensured and the last
value written, whatever was written in between; at all other stages it is the one it began on. This
is what it means for a command to behave like that, as long as nothing else writes. On a store where
the order and the op are typed nothing else is asked for. Any other store may refuse to take a write
back, so there it is asked for that it does not.
-/

namespace TransformStack

/-- The order of an entity is typed, and so are the values of its ops at a position. -/
structure Store.TypedAt (s : Store) (id : EntityId) (position : Position) : Prop where
  order : s.OrderTyped id
  values : ∀ op, Position.ofOp? op = some position → s.ValueTyped id op.attributeName .default

/-- All orders and values of a well typed store are typed. -/
theorem Store.WellTyped.typedAt {s : Store} (h : s.WellTyped) (id : EntityId)
    (position : Position) : s.TypedAt id position :=
  ⟨h.orderTyped id, fun op _ => h.valueTyped id op.attributeName .default⟩

/-! ## Stages -/

/-- A call of the host on a command. -/
inductive CommandCall where
  | set (value : Vector3)
  | setValue (value : Value)
  | execute
  | undo
  | redo

/-- The life of a command that edits the op of one recipe: the store it began on, and the stage it
has come to. -/
structure Lifecycle where
  initial : Store
  entity : EntityId
  recipe : Recipe
  converter : Converter
  state : CommandState
  /-- The last value that took effect. -/
  value : Option Vector3

namespace CommandCall

/-- The call gives the command a value that it does not take. -/
def Rejected : CommandCall → Prop
  | set v => v.isFinite = false
  | setValue value => value.isEmpty = false ∧ ∀ v, value.toVector? = some v → v.isFinite = false
  | execute | undo | redo => False

end CommandCall

namespace Lifecycle

/-- The store that the life began on is typed where the command writes. -/
def Typed (l : Lifecycle) : Prop := l.initial.TypedAt l.entity l.recipe.position

/-- A value is kept before the first execution, takes effect while the command stands applied, and
is ignored while it is undone. -/
def give (l : Lifecycle) (v : Vector3) : Lifecycle :=
  if v.isFinite then
    match l.state with
    | .unbound | .pending => { l with state := .pending, value := some v }
    | .committed | .redone => { l with value := some v }
    | .undone => l
  else l

/-- The stage that a call leads to. -/
def next (l : Lifecycle) : CommandCall → Lifecycle
  | .set v => l.give v
  | .setValue value => if value.isEmpty then l else (value.toVector?.map l.give).getD l
  | .execute =>
    match l.state with
    | .pending => { l with state := .committed }
    | .undone => { l with state := .redone }
    | .unbound | .committed | .redone => l
  | .undo => if l.state.isApplied then { l with state := .undone } else l
  | .redo => if l.state = .undone then { l with state := .redone } else l

/-- From one stage to another only the state and the value change. -/
theorem exists_next (l : Lifecycle) (call : CommandCall) :
    ∃ state value, l.next call = { l with state, value } := by
  have hgive (v : Vector3) : ∃ state value, l.give v = { l with state, value } := by
    unfold give
    split
    · split <;> exact ⟨_, _, rfl⟩
    · exact ⟨_, _, rfl⟩
  cases call with
  | set v => exact hgive v
  | setValue value =>
    simp only [next]
    cases value.toVector? with
    | none => split <;> exact ⟨_, _, rfl⟩
    | some v =>
      split
      · exact ⟨_, _, rfl⟩
      · exact hgive v
  | execute | undo | redo =>
    simp only [next]
    split <;> exact ⟨_, _, rfl⟩

/-- All stages of a life are typed if one is. -/
theorem Typed.next {l : Lifecycle} (h : l.Typed) (call : CommandCall) : (l.next call).Typed := by
  obtain ⟨state, value, hnext⟩ := l.exists_next call
  rw [hnext]
  exact h

/-- The first store with the op ensured and a value written to it. -/
def Makes (l : Lifecycle) (value : Vector3) (after : Store) : Prop :=
  ∃ op mid stored tx,
    (Arrangement.ensure l.entity l.recipe).on (.start { layer := { store := l.initial } }) =
      (.ok op, mid) ∧
    l.converter.store op value = .ok stored ∧
    mid.setValue l.entity op.attributeName stored .default = (.ok true, tx) ∧ tx.store = after

/-- The command is at the stage of the lifecycle, and the store is what it should be there. -/
structure Shows (l : Lifecycle) (c : Command) (s : Store) : Prop where
  state : c.state = l.state
  store_of_applied : l.state.isApplied → ∃ value, l.value = some value ∧ l.Makes value s
  store_of_not_applied : l.state.isApplied = false → s = l.initial

/-- A call is to make a first write that cannot be made: the layer refuses something, or nothing
comes of the value on the first store. -/
def Hinders (l : Lifecycle) (refusals : Refusals) (call : CommandCall) : Prop :=
  l.state.isApplied = false ∧ (l.next call).state.isApplied ∧
    (refusals = {} → ∀ value after, l.value = some value → ¬l.Makes value after)

end Lifecycle

/-- Make a call of the host. -/
def Command.call (c : Command) (s : Session) : CommandCall → Call Command
  | .set v => c.set v s
  | .setValue value => c.setValue value s
  | .execute => c.execute s
  | .undo => c.undo s
  | .redo => c.redo s

/-- A call of the host on a matrix command. -/
inductive MatrixCall where
  | set (matrix : Matrix4)
  | execute
  | undo
  | redo

/-- Make a call of the host. -/
def MatrixCommand.call (m : MatrixCommand) (s : Session) : MatrixCall → Call MatrixCommand
  | .set matrix => m.set matrix s
  | .execute => m.execute s
  | .undo => m.undo s
  | .redo => m.redo s

/-- The store refuses no write that takes others back: neither those that the journal of a command
holds when the command is undone, nor those of a call that fails. -/
structure CommandCall.TakenBack (call : CommandCall) (c : Command) (s : Session) : Prop where
  undo : call = .undo → ∃ before, c.journal.TakesBack s.store before
  rollback : ∀ e, LogEntry.rollbackFailed e ∉ (c.call s call).session.log

/-- Through all calls a command shows the stages of a lifecycle. A call that succeeds leads to the
next stage. A call fails exactly where its value is rejected, or where it hinders a first write, and
leaves the stage. If the life began on a store that was not typed, this goes for calls whose writes
the store takes back. -/
def Command.Follows (c : Command) (layer : Layer) (l : Lifecycle) : List CommandCall → Prop
  | [] => l.Shows c layer.store
  | call :: calls =>
    l.Shows c layer.store ∧
      (l.Typed ∨ call.TakenBack c { layer } →
        (c.call { layer } call).Meets
          (fun c' s' => ¬call.Rejected ∧ c'.Follows s'.layer (l.next call) calls)
          fun c' s' => (call.Rejected ∨ l.Hinders layer.refusals call) ∧
            c'.Follows s'.layer l calls)

namespace Command.Follows

variable {c : Command} {layer : Layer} {l : Lifecycle} {call : CommandCall}
  {calls : List CommandCall}

/-- The command is at the stage from which it follows the life. -/
theorem shows (h : c.Follows layer l calls) : l.Shows c layer.store := by
  cases calls with
  | nil => exact h
  | cons call calls => exact h.1

/-- A call that succeeds goes on along the next stage. -/
theorem next (h : c.Follows layer l (call :: calls)) (hback : l.Typed ∨ call.TakenBack c { layer })
    {done : Call Command} (hdone : c.call { layer } call = done) (hok : done.outcome = .ok ()) :
    done.command.Follows done.session.layer (l.next call) calls := by
  subst hdone
  exact ((h.2 hback).ok hok).2

end Command.Follows

end TransformStack
