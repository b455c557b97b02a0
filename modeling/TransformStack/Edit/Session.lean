import TransformStack.Edit.Layer
import TransformStack.Edit.Log

/-!
# Sessions

A session is a layer under edit. It gathers what the edits tell those who watch the scene, and what
is worth telling the user.
-/

namespace TransformStack

/-- What an edit tells those who watch the scene. -/
inductive Signal where
  /-- Hold notices back from here on. -/
  | hold
  /-- An entity was written to. -/
  | changed (id : EntityId)
  /-- Let the notices go that were held back since the matching `hold`. -/
  | release
  deriving DecidableEq

/-- A layer under edit, with the signals and the log entries that the edits leave behind, the
oldest first. -/
structure Session where
  layer : Layer
  signals : List Signal := []
  log : List LogEntry := []

namespace Session

/-- The store under edit. -/
def store (s : Session) : Store := s.layer.store

/-- Leave a signal. -/
def signal (s : Session) (signal : Signal) : Session :=
  { s with signals := s.signals ++ [signal] }

/-- Leave a log entry. -/
def note (s : Session) (entry : LogEntry) : Session := { s with log := s.log ++ [entry] }

/-- Replace the layer by one that an entity was written to in. -/
def wrote (s : Session) (id : EntityId) (layer : Layer) : Session :=
  { s with layer }.signal (.changed id)

/-- Hold notices back while something is done. -/
def guarded {α : Type} (s : Session) (act : Session → α × Session) : α × Session :=
  let (a, s) := act (s.signal .hold)
  (a, s.signal .release)

end Session

end TransformStack
