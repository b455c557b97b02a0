import TransformStack.Command.Basic

/-!
# Commands that set a whole matrix

A matrix command drives three commands, for translation, rotation and scale. When a part fails to
execute, the parts before it are undone, the latest first.
-/

namespace TransformStack

namespace Call

variable {κ : Type}

/-- Go on with another call, unless this one failed. -/
def andThen (call : Call κ) (next : κ → Session → Call κ) : Call κ :=
  match call.outcome with
  | .ok _ => next call.command call.session
  | .error _ => call

/-- If the call failed, make up for it with another call; should that fail too, its failure is the
outcome. -/
def orElse (call : Call κ) (recover : κ → Session → Call κ) : Call κ :=
  match call.outcome with
  | .ok _ => call
  | .error e =>
    let recovery := recover call.command call.session
    match recovery.outcome with
    | .ok _ => { recovery with outcome := .error e }
    | .error _ => recovery

/-- Hold notices back during a call. -/
def guarded (act : κ → Session → Call κ) (command : κ) (s : Session) : Call κ :=
  let call := act command (s.signal .hold)
  { call with session := call.session.signal .release }

end Call

/-- A command for each part of a matrix. -/
structure MatrixCommand where
  entity : EntityId
  translate : Command
  rotate : Command
  scale : Command

namespace MatrixCommand

/-- The state of a matrix command is that of its translation. -/
def state (m : MatrixCommand) : CommandState := m.translate.state

/-- A call on the translation. -/
def translating (call : Command → Session → Call Command) (m : MatrixCommand) (s : Session) :
    Call MatrixCommand :=
  let part := call m.translate s
  ⟨part.outcome, { m with translate := part.command }, part.session⟩

/-- A call on the rotation. -/
def rotating (call : Command → Session → Call Command) (m : MatrixCommand) (s : Session) :
    Call MatrixCommand :=
  let part := call m.rotate s
  ⟨part.outcome, { m with rotate := part.command }, part.session⟩

/-- A call on the scale. -/
def scaling (call : Command → Session → Call Command) (m : MatrixCommand) (s : Session) :
    Call MatrixCommand :=
  let part := call m.scale s
  ⟨part.outcome, { m with scale := part.command }, part.session⟩

/-- Give the parts their values, up to the first that fails. Each part announces its own writes. -/
def set (m : MatrixCommand) (matrix : Matrix4) (s : Session) : Call MatrixCommand :=
  let p := Placement.ofMatrix matrix
  (translating (·.set p.translation) m s)
    |>.andThen (rotating (·.set p.rotation))
    |>.andThen (scaling (·.set p.scale))

/-- Execute the parts. When one fails, those before it are undone. -/
def execute : MatrixCommand → Session → Call MatrixCommand :=
  Call.guarded fun m s =>
    (translating Command.execute m s)
      |>.andThen (fun m s => (rotating Command.execute m s).orElse (translating Command.undo))
      |>.andThen (fun m s => (scaling Command.execute m s).orElse fun m s =>
        (rotating Command.undo m s).andThen (translating Command.undo))

/-- Undo the parts, the last first, up to the first that fails. -/
def undo : MatrixCommand → Session → Call MatrixCommand :=
  Call.guarded fun m s =>
    (scaling Command.undo m s)
      |>.andThen (rotating Command.undo)
      |>.andThen (translating Command.undo)

/-- Redo the parts, up to the first that fails. -/
def redo : MatrixCommand → Session → Call MatrixCommand :=
  Call.guarded fun m s =>
    (translating Command.redo m s)
      |>.andThen (rotating Command.redo)
      |>.andThen (scaling Command.redo)

end MatrixCommand

/-! ## Commands of either kind -/

/-- A command as the host holds it. -/
inductive AnyCommand where
  | single (c : Command)
  | matrix (m : MatrixCommand)

namespace AnyCommand

/-- The entity that a command edits. -/
def entity : AnyCommand → EntityId
  | single c => c.entity
  | matrix m => m.entity

/-- Where a command is in its life. -/
def state : AnyCommand → CommandState
  | single c => c.state
  | matrix m => m.state

/-- Make a call on a command of either kind. -/
def call (onSingle : Command → Session → Call Command)
    (onMatrix : MatrixCommand → Session → Call MatrixCommand) (command : AnyCommand) (s : Session) :
    Call AnyCommand :=
  match command with
  | single c =>
    let done := onSingle c s
    ⟨done.outcome, single done.command, done.session⟩
  | matrix m =>
    let done := onMatrix m s
    ⟨done.outcome, matrix done.command, done.session⟩

/-- Execute a command. -/
def execute : AnyCommand → Session → Call AnyCommand :=
  call Command.execute MatrixCommand.execute

/-- Undo a command. -/
def undo : AnyCommand → Session → Call AnyCommand := call Command.undo MatrixCommand.undo

/-- Redo a command. -/
def redo : AnyCommand → Session → Call AnyCommand := call Command.redo MatrixCommand.redo

end AnyCommand

end TransformStack
