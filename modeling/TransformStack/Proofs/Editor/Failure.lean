import TransformStack.Proofs.Command.Redoing
import TransformStack.Proofs.Editor.Calls

/-!
# What failed calls leave

A command that cannot be executed leaves the store and the history of the editor as they were. A
command that cannot be redone leaves the history too. It leaves the store if it is a single command;
a matrix command does so only where the parts redone before the failure were in place, since redoing
does not take parts back as executing does.
-/

namespace TransformStack

namespace Editor

variable {ed ed' : Editor} {id : CommandId} {command : AnyCommand} {e : EditError}

/-! ## Failed executions -/

/-- A new command that cannot be executed leaves the whole store, the history, and all other
commands, whatever the reason is. -/
theorem failed_execute_keeps (htyped : ed.store.WellTyped)
    (hcommand : ed.commands[id]? = some command) (hfresh : command.Fresh)
    (herror : ed.execute id = (.error e, ed')) :
    ed'.store = ed.store ∧ ed'.history = ed.history ∧
      ∀ id', id' ≠ id → ed'.commands[id']? = ed.commands[id']? := by
  have hexecute := hfresh.ready.execute (s := ed.session) htyped
  cases houtcome : (command.execute ed.session).outcome with
  | ok u =>
    rw [execute_of_ok hcommand houtcome] at herror
    cases herror
  | error e' =>
    rw [execute_of_error hcommand houtcome, Prod.mk.injEq] at herror
    obtain ⟨-, rfl⟩ := herror
    refine ⟨hexecute.error e' houtcome, rfl, fun id' hne => ?_⟩
    rw [commands_after _ hcommand, if_neg hne]

/-- A matrix command whose rotation is refused takes its translation back. -/
theorem failed_execute_keeps_bare :
    let layer : Layer := { store := .bare, refusals := { addAfter := some 1 } }
    let ed := ((start layer 2 .default).register (.matrix AnyCommand.transform)).2
    (ed.execute 0).1 = .error (.structural (.addRefused .rotate .rotateXYZ default)) ∧
      (ed.execute 0).2.store = .bare := by
  intro layer ed
  have htyped : ed.store.WellTyped := Store.wellTyped_bare
  have hcommand : ed.commands[0]? = some (.matrix AnyCommand.transform) := rfl
  have houtcome : (ed.execute 0).1 =
      .error (.structural (.addRefused .rotate .rotateXYZ default)) := by decide +kernel
  have herror : ed.execute 0 = (.error (.structural (.addRefused .rotate .rotateXYZ default)),
      (ed.execute 0).2) := by rw [← houtcome]
  exact ⟨houtcome, (failed_execute_keeps htyped hcommand AnyCommand.fresh_transform herror).1⟩

/-! ## Failed redos -/

/-- Undoing a new command that was just executed leads back to the store it was executed on. -/
theorem undo_submit (htyped : ed.store.WellTyped) (hfresh : command.Fresh)
    (hok : (ed.submit command).1 = .ok ()) {older : List CommandId}
    (hundo : (ed.submit command).2.history.undo = ed.commands.size :: older) :
    (ed.submit command).2.undo.2.store = ed.store ∧
      ∃ left, (ed.submit command).2.undo.2.commands[ed.commands.size]? = some left ∧
        left.Reached := by
  rw [outcome_submit] at hok
  have hcommand : (ed.submit command).2.commands[ed.commands.size]? =
      some (command.execute ed.session).command := by rw [commands_submit, if_pos rfl]
  have happlied : (command.execute ed.session).command.Applied ed.store
      (command.execute ed.session).session.store :=
    (hfresh.ready.execute (s := ed.session) htyped).ok hok
  have hundone := happlied.undo (s := (ed.submit command).2.session) (store_submit ed command)
  have hback : ((command.execute ed.session).command.undo
      (ed.submit command).2.session).session.store = ed.store := by
    rw [Session.store, (hundone.ok hundone.succeeds).2]
  rw [undo_of_ok hundo hcommand hundone.succeeds]
  refine ⟨hback, _, (commands_after _ hcommand _).trans (if_pos rfl), ?_⟩
  exact .undone _ (.executed _ (.fresh hfresh))

/-- A command that cannot be redone leaves the history and all other commands. It leaves the store
exactly where each part that was redone before the failure was in place; of a single command no part
is redone. -/
theorem failed_redo_keeps_iff (hdeclared : ed.store.OrdersDeclared) {others : List CommandId}
    (hredo : ed.history.redo = id :: others) (hcommand : ed.commands[id]? = some command)
    (hreached : command.Reached) (herror : ed.redo = (.error e, ed')) :
    ed'.history = ed.history ∧ (∀ id', id' ≠ id → ed'.commands[id']? = ed.commands[id']?) ∧
      (ed'.store = ed.store ↔ ∀ part ∈ command.redone ed.session, part.InPlace ed.store) ∧
      ∀ c, command = .single c → command.redone ed.session = [] := by
  cases houtcome : (command.redo ed.session).outcome with
  | ok u =>
    rw [redo_of_ok hredo hcommand houtcome] at herror
    cases herror
  | error e' =>
    rw [redo_of_error hredo hcommand houtcome, Prod.mk.injEq] at herror
    obtain ⟨-, rfl⟩ := herror
    refine ⟨rfl, fun id' hne => ?_, AnyCommand.store_redo_eq_iff hreached.placed hdeclared, ?_⟩
    · rw [commands_after _ hcommand, if_neg hne]
    · rintro c rfl
      exact AnyCommand.redone_single_of_error houtcome

/-- An editor of a bare store in which a matrix command was executed and undone. -/
def undoneTransform : Editor :=
  ((start { store := .bare } 2 .default).submit (.matrix AnyCommand.transform)).2.undo.2

/-- The undone command of the example leaves a bare store. -/
theorem undoneTransform_spec :
    undoneTransform.store = .bare ∧
      ∃ command, undoneTransform.commands[0]? = some command ∧ command.Reached := by
  have htyped : (start { store := .bare } 2 .default).store.WellTyped := Store.wellTyped_bare
  have hundo : ((start { store := .bare } 2 .default).submit
      (.matrix AnyCommand.transform)).2.history.undo = [0] := by decide +kernel
  exact undo_submit htyped AnyCommand.fresh_transform (by decide +kernel) hundo

/-- That editor, once its layer refuses the second of the ops that are added next. -/
def refusedTransform : Editor :=
  { undoneTransform with layer := undoneTransform.layer.refuseAddAfter 1 }

/-- Redoing the command of the example fails at the rotation. -/
theorem refusedTransform_spec :
    refusedTransform.store = .bare ∧ refusedTransform.history.redo = [0] ∧
      refusedTransform.redo.1 = .error (.structural (.addRefused .rotate .rotateXYZ default)) ∧
      ∃ command, refusedTransform.commands[0]? = some command ∧ command.Reached :=
  ⟨undoneTransform_spec.1, by decide +kernel, by decide +kernel, undoneTransform_spec.2⟩

/-- What the editor leaves is settled by the parts that are redone, which are not in place. -/
theorem failed_redo_keeps_iff_transform :
    ∃ command, refusedTransform.commands[0]? = some command ∧
      (refusedTransform.redo.2.store = refusedTransform.store ↔
        ∀ part ∈ command.redone refusedTransform.session, part.InPlace refusedTransform.store) := by
  obtain ⟨hstore, hredo, houtcome, command, hcommand, hreached⟩ := refusedTransform_spec
  have hdeclared : refusedTransform.store.OrdersDeclared := by
    rw [hstore]
    exact Store.wellTyped_bare.orders
  have herror : refusedTransform.redo =
      (.error (.structural (.addRefused .rotate .rotateXYZ default)), refusedTransform.redo.2) := by
    rw [← houtcome]
  exact ⟨command, hcommand,
    (failed_redo_keeps_iff hdeclared hredo hcommand hreached herror).2.2.1⟩

/-- The translation stays redone where the rotation is refused. -/
theorem failed_redo_leaves_translation :
    (∃ command, refusedTransform.commands[0]? = some command ∧ command.Reached) ∧
      refusedTransform.store.WellTyped ∧ refusedTransform.history.redo = [0] ∧
      refusedTransform.redo.1 = .error (.structural (.addRefused .rotate .rotateXYZ default)) ∧
      refusedTransform.redo.2.store ≠ refusedTransform.store := by
  obtain ⟨hstore, hredo, houtcome, hcommand⟩ := refusedTransform_spec
  rw [hstore]
  refine ⟨hcommand, Store.wellTyped_bare, hredo, houtcome, fun hsame => ?_⟩
  have hbefore : Store.bare.order default = .ok ⟨[], false⟩ := by decide +kernel
  have hafter : refusedTransform.redo.2.store.order default =
      .ok ⟨[⟨.translate, none, .double, false⟩], false⟩ := by decide +kernel
  rw [hsame, hbefore] at hafter
  cases hafter

end Editor

end TransformStack
