import TransformStack.Editor.Basic

/-!
# What the calls of an editor do

A call on a command changes the layer and that one command of the table. Executing, undoing and
redoing change the history besides, and only where the call succeeds.
-/

namespace TransformStack

namespace Editor

variable {ed : Editor} {id : CommandId} {command : AnyCommand}

/-- The editor after a call on a command: the session is taken over, and the command with it. -/
def after (ed : Editor) (id : CommandId) (call : Call AnyCommand) : Editor :=
  { ed.absorb call.session with commands := ed.commands.setIfInBounds id call.command }

/-- An editor takes over the store of a call. -/
@[simp] theorem store_after (call : Call AnyCommand) : (ed.after id call).store =
    call.session.store := rfl

/-- A call changes its own command and no other. -/
theorem commands_after (call : Call AnyCommand) (h : ed.commands[id]? = some command)
    (id' : CommandId) :
    (ed.after id call).commands[id']? =
      if id' = id then some call.command else ed.commands[id']? := by
  have hid : id < ed.commands.size := (Array.getElem?_eq_some_iff.1 h).1
  show (ed.commands.setIfInBounds id call.command)[id']? = _
  rw [Array.getElem?_setIfInBounds]
  by_cases heq : id = id'
  · subst heq
    simp [hid]
  · simp [heq, Ne.symm heq]

/-- A call on a command of the editor answers as the command does. -/
theorem call_eq (h : ed.commands[id]? = some command)
    (act : AnyCommand → Session → Call AnyCommand) :
    ed.call id act =
      ((act command ed.session).outcome, ed.after id (act command ed.session)) := by
  unfold call
  rw [h]
  rfl

/-! ## Executing -/

/-- A command that could be executed enters the history. -/
theorem execute_of_ok (hcommand : ed.commands[id]? = some command)
    (hok : (command.execute ed.session).outcome = .ok ()) :
    ed.execute id = (.ok (), { ed.after id (command.execute ed.session) with
      history := ed.history.executed id }) := by
  unfold execute
  rw [call_eq hcommand, hok]
  rfl

/-- A command that could not be executed does not. -/
theorem execute_of_error (hcommand : ed.commands[id]? = some command) {e : EditError}
    (herror : (command.execute ed.session).outcome = .error e) :
    ed.execute id = (.error e, ed.after id (command.execute ed.session)) := by
  unfold execute
  rw [call_eq hcommand, herror]

/-- Take over a command of the host, and execute it. -/
def submit (ed : Editor) (command : AnyCommand) : Except EditError Unit × Editor :=
  let (id, ed) := ed.register command
  ed.execute id

/-- A command that is submitted is the last of the table. -/
theorem commands_register (ed : Editor) (command : AnyCommand) (id : CommandId) :
    (ed.register command).2.commands[id]? =
      if id = ed.commands.size then some command else ed.commands[id]? := by
  show (ed.commands.push command)[id]? = _
  rw [Array.getElem?_push]

/-- Submitting a command is executing it, and taking it into the history if that succeeds. -/
theorem submit_eq (ed : Editor) (command : AnyCommand) :
    ed.submit command =
      let done := command.execute ed.session
      let left := (ed.register command).2.after ed.commands.size done
      match done.outcome with
      | .ok _ => (.ok (), { left with history := ed.history.executed ed.commands.size })
      | .error e => (.error e, left) := by
  have hcommand : (ed.register command).2.commands[ed.commands.size]? = some command := by
    rw [commands_register, if_pos rfl]
  have hsession : (ed.register command).2.session = ed.session := rfl
  show (ed.register command).2.execute ed.commands.size = _
  cases houtcome : (command.execute ed.session).outcome with
  | ok u =>
    rw [execute_of_ok hcommand houtcome, hsession]
    dsimp only
    rw [houtcome]
    rfl
  | error e =>
    rw [execute_of_error hcommand houtcome, hsession]
    dsimp only
    rw [houtcome]

/-- Submitting a command answers as executing it does. -/
theorem outcome_submit (ed : Editor) (command : AnyCommand) :
    (ed.submit command).1 = (command.execute ed.session).outcome := by
  rw [submit_eq]
  dsimp only
  split
  · next houtcome => exact houtcome.symm
  · next houtcome => exact houtcome.symm

/-- Submitting a command leaves the store that executing it leaves. -/
theorem store_submit (ed : Editor) (command : AnyCommand) :
    (ed.submit command).2.store = (command.execute ed.session).session.store := by
  rw [submit_eq]
  dsimp only
  split <;> rfl

/-- The submitted command comes under the next number, and the others stay. -/
theorem commands_submit (ed : Editor) (command : AnyCommand) (id : CommandId) :
    (ed.submit command).2.commands[id]? =
      if id = ed.commands.size then some (command.execute ed.session).command
      else ed.commands[id]? := by
  have hcommand : (ed.register command).2.commands[ed.commands.size]? = some command := by
    rw [commands_register, if_pos rfl]
  have hafter := commands_after (command.execute ed.session) hcommand id
  rw [commands_register] at hafter
  rw [submit_eq]
  dsimp only
  split <;> (refine hafter.trans ?_; split <;> rfl)

/-- Only a command that could be executed enters the history. -/
theorem history_submit (ed : Editor) (command : AnyCommand) :
    (ed.submit command).2.history =
      match (command.execute ed.session).outcome with
      | .ok _ => ed.history.executed ed.commands.size
      | .error _ => ed.history := by
  rw [submit_eq]
  dsimp only
  split <;> rfl

/-! ## Undoing and redoing -/

/-- There is nothing to undo at the start of the history. -/
theorem undo_of_nil (h : ed.history.undo = []) : ed.undo = (.ok .empty, ed) := by
  unfold undo
  rw [h]

/-- There is nothing to redo at the end of the history. -/
theorem redo_of_nil (h : ed.history.redo = []) : ed.redo = (.ok .empty, ed) := by
  unfold redo
  rw [h]

/-- A command that could be undone moves over to the commands that can be redone. -/
theorem undo_of_ok {older : List CommandId} (hundo : ed.history.undo = id :: older)
    (hcommand : ed.commands[id]? = some command)
    (hok : (command.undo ed.session).outcome = .ok ()) :
    ed.undo = (.ok .applied, { ed.after id (command.undo ed.session) with
      history := { ed.history with undo := older, redo := id :: ed.history.redo } }) := by
  unfold undo
  rw [hundo]
  dsimp only
  rw [call_eq hcommand, hok]
  rfl

/-- A command that could not be undone stays where it is. -/
theorem undo_of_error {older : List CommandId} {e : EditError}
    (hundo : ed.history.undo = id :: older) (hcommand : ed.commands[id]? = some command)
    (herror : (command.undo ed.session).outcome = .error e) :
    ed.undo = (.error e, ed.after id (command.undo ed.session)) := by
  unfold undo
  rw [hundo]
  dsimp only
  rw [call_eq hcommand, herror]

/-- A command that could be redone moves over to the commands that can be undone. -/
theorem redo_of_ok {others : List CommandId} (hredo : ed.history.redo = id :: others)
    (hcommand : ed.commands[id]? = some command)
    (hok : (command.redo ed.session).outcome = .ok ()) :
    ed.redo = (.ok .applied, { ed.after id (command.redo ed.session) with
      history := { ed.history with redo := others }.pushUndo id }) := by
  unfold redo
  rw [hredo]
  dsimp only
  rw [call_eq hcommand, hok]
  rfl

/-- A command that could not be redone stays where it is. -/
theorem redo_of_error {others : List CommandId} {e : EditError}
    (hredo : ed.history.redo = id :: others) (hcommand : ed.commands[id]? = some command)
    (herror : (command.redo ed.session).outcome = .error e) :
    ed.redo = (.error e, ed.after id (command.redo ed.session)) := by
  unfold redo
  rw [hredo]
  dsimp only
  rw [call_eq hcommand, herror]

end Editor

end TransformStack
