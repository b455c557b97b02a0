import TransformStack.Edit.Arrangement
import TransformStack.Transform.Matrix

/-!
# Commands that set the value of an op

A command edits the op at one position of one entity. It takes a value, writes it when it is
executed, and can be undone and redone. Executed again, or given another value after that, it
writes through at once. Undoing takes back every write since the last undo, the creation of the op
included.
-/

namespace TransformStack

/-- How the value of a command becomes the value of an attribute. -/
inductive Converter where
  /-- Stored as it is. -/
  | vector
  /-- Angles, stored in the form of the op that is there. -/
  | rotation
  deriving DecidableEq

/-- The value that an op stores for a vector. -/
def Converter.store (converter : Converter) (op : Op) (value : Vector3) :
    Except EditError Value :=
  match converter with
  | vector => .ok (Value.ofVector value op.precision)
  | rotation => EditError.ofData ((Rotation.formOf op.kind).map (·.store value op.precision))

/-- Where a command is in its life. -/
inductive CommandState where
  /-- It has no value. -/
  | unbound
  /-- It has a value and has written nothing. -/
  | pending
  | committed
  | undone
  | redone
  deriving DecidableEq

/-- Whether the writes of a command stand. -/
def CommandState.isApplied : CommandState → Bool
  | committed | redone => true
  | unbound | pending | undone => false

/-- A command that sets the value of the op at one position. -/
structure Command where
  entity : EntityId
  recipe : Recipe
  converter : Converter
  state : CommandState := .unbound
  /-- The value to write next. -/
  newValue : Option Vector3 := none
  /-- The value written last. -/
  committedValue : Option Vector3 := none
  /-- The op written last. -/
  op : Option Op := none
  /-- What takes back the writes since the last undo. -/
  journal : Journal := []

/-- What a call on a command leaves: its outcome, the command and the session. -/
structure Call (κ : Type) where
  outcome : Except EditError Unit
  command : κ
  session : Session

namespace Command

/-- A command that already has a value. -/
def withValue (c : Command) (value : Vector3) : Command :=
  { c with newValue := some value, state := .pending }

/-- The op to write to: the one written last if it is still in the order, else the one at the
position. -/
def target (c : Command) : Steps Op := do
  match c.op with
  | none => Arrangement.ensure c.entity c.recipe
  | some op =>
    if op ∈ (← Steps.ask (·.order c.entity)).ops then return op
    else Arrangement.ensure c.entity c.recipe

/-- Write a value to the op of the command, which is added if it is missing. -/
def write (c : Command) (value : Vector3) : Steps Op := do
  let op ← c.target
  let stored ← liftExcept (c.converter.store op value)
  Steps.require (.writeRefused op.attributeName c.entity)
    (← Steps.tell (·.setValue c.entity op.attributeName stored .default))
  return op
where
  liftExcept {α : Type} (answer : Except EditError α) : Steps α := fun tx => (answer, tx)

/-- Write a value, all or nothing, and remember the op and what takes the writes back. -/
def apply (c : Command) (value : Vector3) (s : Session) : Call Command :=
  match s.guarded (·.transact (c.write value)) with
  | (.ok (op, written), s) => ⟨.ok (), { c with op := some op, journal := written ++ c.journal }, s⟩
  | (.error e, s) => ⟨.error e, c, s⟩

/-- Redo an undone command with the value it wrote last. Any other command stays as it is. -/
def redo (c : Command) (s : Session) : Call Command :=
  match c.state, c.committedValue with
  | .undone, some value =>
    match c.apply value s with
    | ⟨.ok _, c, s⟩ => ⟨.ok (), { c with newValue := some value, state := .redone }, s⟩
    | failed => failed
  | _, _ => ⟨.ok (), c, s⟩

/-- Write the value of the command. Without a value nothing happens, and an undone command is
redone. -/
def execute (c : Command) (s : Session) : Call Command :=
  match c.state, c.newValue with
  | .unbound, _ => ⟨.ok (), c, s⟩
  | .undone, _ => c.redo s
  | _, none => ⟨.ok (), c, s⟩
  | state, some value =>
    match c.apply value s with
    | ⟨.ok _, c, s⟩ =>
      let state := if state = .pending then .committed else state
      ⟨.ok (), { c with committedValue := some value, state }, s⟩
    | failed => failed

/-- Take back the writes of the command. Where the store refuses, the command stays applied and
keeps what is still to be taken back. -/
def undo (c : Command) (s : Session) : Call Command :=
  if c.state.isApplied then
    match s.guarded c.journal.revert with
    | ((.ok _, journal), s) => ⟨.ok (), { c with journal, state := .undone }, s⟩
    | ((.error e, journal), s) => ⟨.error e, { c with journal }, s⟩
  else ⟨.ok (), c, s⟩

/-- Give the command a value. An applied command writes it at once, and an undone one ignores
it. -/
def set (c : Command) (value : Vector3) (s : Session) : Call Command :=
  if value.isFinite then
    match c.state with
    | .unbound | .pending => ⟨.ok (), c.withValue value, s⟩
    | .committed | .redone =>
      match { c with newValue := some value }.apply value s with
      | ⟨.ok _, c, s⟩ => ⟨.ok (), { c with committedValue := some value }, s⟩
      | failed => failed
    | .undone => ⟨.ok (), c, s⟩
  else ⟨.error (.rejected (.notFinite value)), c, s⟩

/-- Give the command the value of an attribute, which must be a vector. The empty value is
ignored. -/
def setValue (c : Command) (value : Value) (s : Session) : Call Command :=
  if value.isEmpty then ⟨.ok (), c, s⟩
  else
    match value.toVector? with
    | some v => c.set v s
    | none => ⟨.error (.rejected (.vectorExpected value)), c, s⟩

end Command

end TransformStack
