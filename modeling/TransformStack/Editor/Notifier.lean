import TransformStack.Edit.Journal

/-!
# Notices of changed entities

Listeners are told which entities changed. While notices are held back, changes are collected, each
entity once, and let go together when the last hold ends. A listener may react to a notice; while
listeners are being told, those that were attached before cannot be reached, so what a reaction
announces reaches only the listeners that joined meanwhile, and these have no reactions.
-/

namespace TransformStack

/-- What a listener does besides taking a notice. -/
inductive Reaction where
  | none
  /-- Announce a change of an entity. -/
  | mark (target : EntityId)
  /-- Announce a change of an entity twice while holding notices back. -/
  | guardedMark (target : EntityId)
  /-- Subscribe a listener of a name, unless the name has been used. -/
  | subscribe (name : String)
  /-- Unsubscribe the listener of a name. -/
  | unsubscribe (name : String)
  deriving DecidableEq

/-- A listener. -/
structure Listener where
  id : Nat
  /-- What it goes by in notices; empty for a listener without a name. -/
  name : String
  reaction : Reaction
  deriving DecidableEq

/-- What was told to a listener, or came of its reaction. -/
inductive Notice where
  /-- A listener was told that an entity changed. -/
  | changed (listener : Nat) (name : String) (entity : EntityId)
  /-- A listener that was told of an entity tried to unsubscribe another. -/
  | unsubscribed (name : String) (found : Bool) (entity : EntityId)
  deriving DecidableEq

/-- The listeners of a scene and what they have been told. -/
structure Notifier where
  /-- How many holds are in force. -/
  depth : Nat := 0
  /-- The entities that changed since the outermost hold, in the order of their first change. -/
  pending : List EntityId := []
  listeners : List Listener := []
  /-- The identifier of the next listener. -/
  nextId : Nat := 0
  /-- The listeners by name, the latest first. -/
  directory : List (String × Nat) := []
  /-- All notices, the latest first. -/
  notices : List Notice := []

namespace Notifier

/-- Note what a listener was told. -/
def record (n : Notifier) (notice : Notice) : Notifier := { n with notices := notice :: n.notices }

/-- Attach a listener that cannot be unsubscribed by name. -/
def attach (n : Notifier) (name : String) (reaction : Reaction) : Notifier :=
  { n with listeners := n.listeners ++ [⟨n.nextId, name, reaction⟩], nextId := n.nextId + 1 }

/-- Attach a listener that is known by its name. -/
def subscribe (n : Notifier) (name : String) (reaction : Reaction) : Notifier :=
  { n.attach name reaction with directory := (name, n.nextId) :: n.directory }

/-- Detach a listener, and tell whether it was attached. -/
def detach (n : Notifier) (id : Nat) : Bool × Notifier :=
  (n.listeners.any (·.id = id), { n with listeners := n.listeners.filter (·.id ≠ id) })

/-- Detach the latest listener of a name, and tell whether it was attached. -/
def unsubscribe (n : Notifier) (name : String) : Bool × Notifier :=
  match n.directory.lookup name with
  | none => (false, n)
  | some id => n.detach id

/-! ## Holding back -/

/-- Hold notices back. -/
def hold (n : Notifier) : Notifier := { n with depth := n.depth + 1 }

/-- Whether notices are held back. -/
def isHeld (n : Notifier) : Bool := 0 < n.depth

/-- Announce a change: at once through `emit`, or later if notices are held back. -/
def markBy (emit : List EntityId → Notifier → Notifier) (n : Notifier) (id : EntityId) :
    Notifier :=
  if n.isHeld then
    if id ∈ n.pending then n else { n with pending := n.pending ++ [id] }
  else emit [id] n

/-- End a hold. With the last hold the changes held back go out through `emit`. -/
def releaseBy (emit : List EntityId → Notifier → Notifier) (n : Notifier) : Notifier :=
  if n.depth ≤ 1 then emit n.pending { n with depth := 0, pending := [] }
  else { n with depth := n.depth - 1 }

/-! ## Telling -/

/-- Tell listeners of entities, without any reaction. -/
def tell (audience : List Listener) (entities : List EntityId) (n : Notifier) : Notifier :=
  entities.foldl
    (fun n entity => audience.foldl (fun n l => n.record (.changed l.id l.name entity)) n) n

/-- Tell the listeners that joined while others are being told. -/
def emitToNewcomers (entities : List EntityId) (n : Notifier) : Notifier :=
  tell n.listeners entities n

/-- What comes of a listener's reaction to a change. -/
def react (n : Notifier) (listener : Listener) (entity : EntityId) : Notifier :=
  match listener.reaction with
  | .none => n
  | .mark target => n.markBy emitToNewcomers target
  | .guardedMark target =>
    ((n.hold.markBy emitToNewcomers target).markBy emitToNewcomers target).releaseBy
      emitToNewcomers
  | .subscribe name =>
    if (n.directory.lookup name).isSome then n else n.subscribe name .none
  | .unsubscribe name =>
    let (found, n) := n.unsubscribe name
    n.record (.unsubscribed listener.name found entity)

/-- Tell a listener of an entity, and let it react. -/
def tellOne (entity : EntityId) (n : Notifier) (listener : Listener) : Notifier :=
  (n.record (.changed listener.id listener.name entity)).react listener entity

/-- Tell all listeners of entities, one entity after the other. The listeners are detached
meanwhile, and those that join are told from the next time on. -/
def emit (entities : List EntityId) (n : Notifier) : Notifier :=
  let audience := n.listeners
  let told := entities.foldl (fun n entity => audience.foldl (tellOne entity) n)
    { n with listeners := [] }
  { told with listeners := audience ++ told.listeners }

/-- Announce a change of an entity. -/
def mark (n : Notifier) (id : EntityId) : Notifier := n.markBy emit id

/-- End a hold. -/
def release (n : Notifier) : Notifier := n.releaseBy emit

/-- End all holds. -/
def releaseAll (n : Notifier) : Notifier := n.depth.repeat release n

/-- Follow the signal of an edit. -/
def follow (n : Notifier) : Signal → Notifier
  | .hold => n.hold
  | .changed id => n.mark id
  | .release => n.release

/-- How often a listener has been told of a change. -/
def toldCount (n : Notifier) (listener : Nat) : Nat :=
  n.notices.countP fun
    | .changed id _ _ => id = listener
    | .unsubscribed .. => false

end Notifier

end TransformStack
