import TransformStack.Edit.Session

/-!
# Journals of edits

A journal holds, for each write that was made, what takes it back, the newest first. Reverting a
journal takes the writes back in that order. Where the store refuses, reverting stops, and the
journal keeps what is still to be taken back.
-/

namespace TransformStack

/-- What takes back one write. -/
inductive Edit where
  /-- The write created an attribute. -/
  | created (id : EntityId) (name : String)
  /-- The write changed what was authored at a time. -/
  | changed (id : EntityId) (name : String) (time : TimeCode) (previous : Option Value)
  deriving DecidableEq

namespace Edit

/-- The entity that was written to. -/
def entity : Edit → EntityId
  | created id _ => id
  | changed id _ _ _ => id

/-- The attribute that was written to. -/
def name : Edit → String
  | created _ name => name
  | changed _ name _ _ => name

/-- Take the write back. -/
def revert (s : Store) : Edit → Except StoreError (Option Store)
  | created id name => .ok (s.removeAttribute id name)
  | changed id name time (some previous) => s.setValue id name previous time
  | changed id name time none => s.clearValue id name time

/-- What will take back a write to an attribute at a time, as long as it has not been made. -/
def before (s : Store) (id : EntityId) (name : String) (time : TimeCode) :
    Except StoreError Edit := do
  match ← s.record? id name with
  | some _ => return changed id name time (← s.authored? id name time)
  | none => return created id name

end Edit

/-- Edits, the newest first. -/
abbrev Journal := List Edit

namespace Journal

/-- Take every write of a journal back, the newest first. What remains of the journal is what has
not been taken back. -/
def revert : Journal → Session → (Except EditError Unit × Journal) × Session
  | [], s => ((.ok (), []), s)
  | edit :: older, s =>
    match s.layer.onStore (edit.revert s.store) with
    | .ok (some layer) => revert older (s.wrote edit.entity layer)
    | .ok none =>
      ((.error (.structural (.revertRefused edit.name edit.entity)), edit :: older), s)
    | .error e => ((.error (.store e), edit :: older), s)

end Journal

end TransformStack
