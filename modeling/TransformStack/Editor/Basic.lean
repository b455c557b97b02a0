import TransformStack.Edit.Authoring
import TransformStack.Editor.Notifier
import TransformStack.Stack.Gate

/-!
# Editors

An editor holds a layer, the listeners who watch it, the commands of its host, and a history of the
commands that were executed. The host refers to commands by number, so that a command can stand in
the history and still be used by the host. The history has two ends: undoing moves the latest
command over, redoing moves it back, and executing a command forgets what was undone.
-/

namespace TransformStack

/-- The number of a command. -/
abbrev CommandId := Nat

/-- The commands that can be undone and redone, the next one first. -/
structure History where
  /-- How many commands can be undone; older ones are forgotten. -/
  limit : Nat
  undo : List CommandId := []
  redo : List CommandId := []
  deriving DecidableEq

namespace History

/-- Put a command where it will be undone next. -/
def pushUndo (h : History) (id : CommandId) : History :=
  { h with undo := (id :: h.undo).take h.limit }

/-- A command was executed. -/
def executed (h : History) (id : CommandId) : History := { h.pushUndo id with redo := [] }

end History

/-- What came of a call to undo or redo. -/
inductive HistoryStep where
  | applied
  /-- There was nothing to undo or redo. -/
  | empty
  deriving DecidableEq

/-- A scene under edit. -/
structure Editor where
  layer : Layer
  notifier : Notifier
  history : History
  /-- The time at which views of stacks read. -/
  readTime : TimeCode
  commands : Array AnyCommand := #[]
  log : List LogEntry := []
  /-- How many changes had been counted when the count was last reset. -/
  countedBefore : Nat := 0

namespace Editor

/-- The listener that counts changes. -/
def counter : Nat := 0

/-- A notifier with the counter and a listener without a name, which takes every change. -/
def freshNotifier : Notifier :=
  (({} : Notifier).attach "counter" .none).attach "" .none

/-- How many commands can be undone unless the host says otherwise. -/
def defaultLimit : Nat := 100

/-- An editor of a layer. -/
def start (layer : Layer) (limit : Nat) (readTime : TimeCode) : Editor where
  layer
  notifier := freshNotifier
  history := { limit }
  readTime

/-- The store under edit. -/
def store (ed : Editor) : Store := ed.layer.store

/-- Replace the store. -/
def setStore (ed : Editor) (store : Store) : Editor :=
  { ed with layer := { ed.layer with store } }

/-- How many changes there have been since the count was reset. -/
def eventCount (ed : Editor) : Nat := ed.notifier.toldCount counter - ed.countedBefore

/-- Count changes from zero. -/
def resetCount (ed : Editor) : Editor :=
  { ed with countedBefore := ed.notifier.toldCount counter }

/-! ## Edits -/

/-- A session in which the layer is edited. -/
def session (ed : Editor) : Session := { layer := ed.layer }

/-- Take over what a session leaves, and tell the listeners what it signals. -/
def absorb (ed : Editor) (s : Session) : Editor :=
  { ed with
    layer := s.layer
    notifier := s.signals.foldl Notifier.follow ed.notifier
    log := ed.log ++ s.log }

/-- Edit the layer in a session. -/
def run {α : Type} (ed : Editor) (act : Session → α × Session) : α × Editor :=
  let (a, s) := act ed.session
  (a, ed.absorb s)

/-- Take over a command of the host. -/
def register (ed : Editor) (command : AnyCommand) : CommandId × Editor :=
  (ed.commands.size, { ed with commands := ed.commands.push command })

/-- Make a call on a command. A number without a command does nothing. -/
def call (ed : Editor) (id : CommandId) (act : AnyCommand → Session → Call AnyCommand) :
    Except EditError Unit × Editor :=
  match ed.commands[id]? with
  | none => (.ok (), ed)
  | some command =>
    let ((outcome, command), ed) := ed.run fun s =>
      let call := act command s
      ((call.outcome, call.command), call.session)
    (outcome, { ed with commands := ed.commands.setIfInBounds id command })

/-- Execute a command and record it. A command that fails is not recorded. -/
def execute (ed : Editor) (id : CommandId) : Except EditError Unit × Editor :=
  match ed.call id AnyCommand.execute with
  | (.ok _, ed) => (.ok (), { ed with history := ed.history.executed id })
  | failed => failed

/-- Undo the latest command. A command that fails to be undone stays the latest. -/
def undo (ed : Editor) : Except EditError HistoryStep × Editor :=
  match ed.history.undo with
  | [] => (.ok .empty, ed)
  | id :: older =>
    match ed.call id AnyCommand.undo with
    | (.ok _, ed) =>
      (.ok .applied,
        { ed with history := { ed.history with undo := older, redo := id :: ed.history.redo } })
    | (.error e, ed) => (.error e, ed)

/-- Redo the command undone last. A command that fails to be redone stays the next to redo. -/
def redo (ed : Editor) : Except EditError HistoryStep × Editor :=
  match ed.history.redo with
  | [] => (.ok .empty, ed)
  | id :: others =>
    match ed.call id AnyCommand.redo with
    | (.ok _, ed) =>
      (.ok .applied, { ed with history := { ed.history with redo := others }.pushUndo id })
    | (.error e, ed) => (.error e, ed)

/-- The view of an entity's stack at the time at which the editor reads. -/
def view (ed : Editor) (id : EntityId) : Except EditError StackView :=
  if ed.store.has id then .ok ⟨id, ed.readTime⟩ else .error (.noEntity id)

/-! ## What the user is told -/

/-- Take note of what bars an edit. -/
def noteBar {α : Type} (ed : Editor) :
    Except EditError (Offer α) → Except EditError (Option α) × Editor
  | .ok (.ok a) => (.ok (some a), ed)
  | .ok (.error bar) => (.ok none, { ed with log := ed.log ++ [.barred bar] })
  | .error e => (.error e, ed)

/-- Whether an edit at a position is allowed. What bars it is noted. -/
def allows (ed : Editor) (view : StackView) (position : Position) :
    Except EditError Bool × Editor :=
  let (answer, ed) := ed.noteBar do
    match ← view.editBar? ed.store position with
    | some bar => return .error bar
    | none => return .ok ()
  ((·.isSome) <$> answer, ed)

/-- Who takes an entity for an edit. Why it is rejected is noted. -/
def resolveForEdit (ed : Editor) (chain : HandlerChain) (id : EntityId) (hint : EditHint) :
    Except EditError Resolution × Editor :=
  let answer := chain.resolveForEdit ed.store id hint
  match answer with
  | .ok resolution => (answer, { ed with log := ed.log ++ resolution.log })
  | .error _ => (answer, ed)

/-! ## Closing -/

/-- End all holds. -/
def releaseAll (ed : Editor) : Editor := { ed with notifier := ed.notifier.releaseAll }

/-- Close the editor and open another one on the same store. The host keeps its commands. -/
def reopen (ed : Editor) : Editor :=
  { start { store := ed.store } defaultLimit .default with
    commands := ed.commands, log := ed.log }

end Editor

end TransformStack
