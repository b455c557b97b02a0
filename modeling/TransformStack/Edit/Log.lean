import TransformStack.Store.Reading

/-!
# What is worth telling the user

Edits leave entries in a log: that writes had to be taken back, and why an edit is not allowed.
-/

namespace TransformStack

/-- What is worth telling the user. -/
inductive LogEntry where
  /-- So many writes that were not committed are taken back. -/
  | rollingBack (count : Nat)
  | rollbackFailed (error : EditError)
  | barred (bar : EditBar)
  /-- An edit was meant for an entity that stands for a part of a shared instance. -/
  | proxy (path : String)
  deriving DecidableEq

namespace LogEntry

/-- Whether an entry only warns; the others tell of errors. -/
def isWarning : LogEntry → Bool
  | rollingBack _ => true
  | rollbackFailed _ | barred _ | proxy _ => false

/-- The wording of an entry. -/
def message (label : EntityId → String) : LogEntry → String
  | rollingBack count => "rolling back " ++ toString count ++ " uncommitted edit(s)"
  | rollbackFailed error => "rollback failed: " ++ error.message label
  | barred bar => bar.message
  | proxy path =>
    "Authoring to the descendant of an instance [" ++ path ++ "] is not allowed. "
      ++ "Please mark 'instanceable=false' to author edits to instance proxies."

end LogEntry

end TransformStack
