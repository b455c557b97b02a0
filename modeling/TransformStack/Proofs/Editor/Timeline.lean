import TransformStack.Proofs.Editor.Calls

/-!
# Timelines

Seen by its host, an editor is a row of snapshots of the whole store with a cursor. Executing a
command drops what lies after the cursor and appends a snapshot, undoing and redoing move the cursor
by one, and only so many snapshots before the cursor are retained. This is what it means for an
editor to behave like that.
-/

namespace TransformStack

/-! ## Timelines -/

/-- Snapshots of a store with a cursor. -/
structure Timeline where
  /-- How many snapshots before the cursor are retained. -/
  limit : Nat
  /-- The snapshots before the cursor, the latest first. -/
  before : List Store := []
  /-- The snapshot at the cursor. -/
  now : Store
  /-- The snapshots after the cursor, the earliest first. -/
  after : List Store := []

/-- A call of the host on an editor. -/
inductive HostCall where
  | execute (command : AnyCommand)
  | undo
  | redo

namespace Timeline

/-- Put a snapshot after the one at the cursor, in place of all that were there. -/
def append (t : Timeline) (s : Store) : Timeline :=
  { t with before := (t.now :: t.before).take t.limit, now := s, after := [] }

/-- Move the cursor back by one snapshot, if there is one. -/
def back (t : Timeline) : Timeline :=
  match t.before with
  | [] => t
  | s :: older => { t with before := older, now := s, after := t.now :: t.after }

/-- Move the cursor forward by one snapshot, if there is one. -/
def forward (t : Timeline) : Timeline :=
  match t.after with
  | [] => t
  | s :: later =>
    { t with before := (t.now :: t.before).take t.limit, now := s, after := later }

/-- What a call makes of a timeline, where executing a command led to a store. -/
def step (t : Timeline) (made : Store) : HostCall → Timeline
  | .execute _ => t.append made
  | .undo => t.back
  | .redo => t.forward

/-- What a call answers: that there was nothing to do exactly at the ends of the timeline. -/
def answer (t : Timeline) : HostCall → HistoryStep
  | .execute _ => .applied
  | .undo => if t.before = [] then .empty else .applied
  | .redo => if t.after = [] then .empty else .applied

end Timeline

namespace Editor

/-- Make a call of the host. -/
def perform (ed : Editor) : HostCall → Except EditError HistoryStep × Editor
  | .execute command =>
    let (outcome, ed) := ed.submit command
    (outcome.map fun _ => .applied, ed)
  | .undo => ed.undo
  | .redo => ed.redo

/-- Executing a command of the host is submitting it. -/
theorem perform_execute (ed : Editor) (command : AnyCommand) :
    ed.perform (.execute command) =
      ((ed.submit command).1.map fun _ => .applied, (ed.submit command).2) := rfl

/-- The editor shows the snapshot at the cursor, its history is as long as the timeline on both
sides of it, and is not longer altogether than the timeline allows. -/
structure Shows (ed : Editor) (t : Timeline) : Prop where
  store : ed.store = t.now
  undoDepth : ed.history.undo.length = t.before.length
  redoDepth : ed.history.redo.length = t.after.length
  bound : ed.history.undo.length + ed.history.redo.length ≤ t.limit

/-- Through all calls that succeed the editor shows a timeline, and answers as the timeline does.
Undoing does succeed, and so does redoing where the layer refuses nothing. -/
def Follows (ed : Editor) (t : Timeline) : List HostCall → Prop
  | [] => ed.Shows t
  | call :: calls =>
    ed.Shows t ∧
      (call = .undo ∨ call = .redo ∧ ed.layer.refusals = {} →
        ∃ answer, (ed.perform call).1 = .ok answer) ∧
      ∀ answer ed', ed.perform call = (.ok answer, ed') →
        answer = t.answer call ∧ ed'.Follows (t.step ed'.store call) calls

end Editor

end TransformStack
