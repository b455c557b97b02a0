import TransformStack.Proofs.Command.Quaternions
import TransformStack.Proofs.Editor.Announcing
import TransformStack.Proofs.Stack.Finiteness

/-!
# Quaternions are never written

The host of an editor takes commands from views, makes calls on them itself, and has the editor
execute, undo and redo them. Whatever it does, the attributes of quaternions stay what they are on
every entity: none is created, changed or removed. A rotation that was not executed yet fails where
it meets a quaternion, and leaves the editor as it was.
-/

namespace TransformStack

/-! ## Calls on a command -/

/-- Make a call of the host. A call for the other kind of commands does nothing. -/
def AnyCall.make : AnyCall → AnyCommand → Session → Call AnyCommand
  | single call => AnyCommand.call (·.call · call) fun m s => ⟨.ok (), m, s⟩
  | matrix call => AnyCommand.call (fun c s => ⟨.ok (), c, s⟩) (·.call · call)

namespace AnyCommand

variable {command : AnyCommand} {s : Session}

/-- A call of the host leads on to a command that calls can lead to. -/
theorem Reached.make (h : command.Reached) (call : AnyCall) (s : Session) :
    (call.make command s).command.Reached := by
  cases command with
  | single c =>
    cases call with
    | matrix call => exact h
    | single call =>
      cases call with
      | set value => exact .set value s h
      | setValue value => exact .setValue value s h
      | execute => exact .executed s h
      | undo => exact .undone s h
      | redo => exact .redone s h
  | matrix m =>
    cases call with
    | single call => exact h
    | matrix call =>
      cases call with
      | set value => exact .setMatrix value s h
      | execute => exact .executed s h
      | undo => exact .undone s h
      | redo => exact .redone s h

/-- No call on a command touches a quaternion. -/
theorem Reached.sameAt (h : command.Reached) (call : AnyCall) (s : Session) :
    s.store.SameAt Op.IsQuaternion (call.make command s).session.store := by
  have havoids := h.avoids
  cases command with
  | single c =>
    cases call with
    | single call => exact (havoids.single s call).2
    | matrix call => exact .refl _
  | matrix m =>
    cases call with
    | single call => exact .refl _
    | matrix call => exact (havoids.matrix s call).2

/-- Executing, undoing and redoing are calls of the host. -/
theorem exists_make {done : Call AnyCommand}
    (h : done = command.execute s ∨ done = command.undo s ∨ done = command.redo s) :
    ∃ call : AnyCall, done = call.make command s := by
  cases command with
  | single c =>
    rcases h with rfl | rfl | rfl
    · exact ⟨.single .execute, rfl⟩
    · exact ⟨.single .undo, rfl⟩
    · exact ⟨.single .redo, rfl⟩
  | matrix m =>
    rcases h with rfl | rfl | rfl
    · exact ⟨.matrix .execute, rfl⟩
    · exact ⟨.matrix .undo, rfl⟩
    · exact ⟨.matrix .redo, rfl⟩

end AnyCommand

/-! ## What happens to an editor -/

/-- What happens to an editor. -/
inductive Event where
  /-- The host takes a command that a view offers. -/
  | offer (view : StackView) (position : Position) (value : Vector3)
  | offerMatrix (view : StackView) (matrix : Matrix4)
  /-- The host makes a call on a command, past the history. -/
  | direct (id : CommandId) (call : AnyCall)
  /-- The host has the editor execute, undo or redo. -/
  | history (call : EditCall)
  /-- The layer is edited without the commands, in whatever way. -/
  | outside (s : Session)

/-- It is the host who deals with commands. -/
def Event.OfCommands : Event → Prop
  | outside _ => False
  | _ => True

namespace Editor

/-- Take over a command if it is offered. -/
def take {κ : Type} (ed : Editor) (command : κ → AnyCommand)
    (offer : Except EditError (Offer κ)) : Editor :=
  match ed.noteBar offer with
  | (.ok (some c), ed) => (ed.register (command c)).2
  | (_, ed) => ed

/-- The editor after something happened, whether that succeeded or not. -/
def live (ed : Editor) : Event → Editor
  | .offer view position value => ed.take .single (view.offerAt ed.store position value)
  | .offerMatrix view matrix => ed.take .matrix (view.offerMatrix ed.store matrix)
  | .direct id call => (ed.call id call.make).2
  | .history call => ed.turn call
  | .outside s => ed.absorb s

/-- The editor after one thing happened after the other. -/
def liveAll (ed : Editor) (events : List Event) : Editor := events.foldl live ed

/-- All commands of the editor were offered by some views, and some calls were made on them since,
be it in other sessions; and the notifier is one that can be. Nothing is said of the layer. -/
structure Hosted (ed : Editor) : Prop where
  commands : ∀ (id : CommandId) (command : AnyCommand),
    ed.commands[id]? = some command → command.Reached
  notifier : ed.notifier.Reached

variable {ed : Editor} {id : CommandId} {command : AnyCommand}

/-- An editor starts without a command. -/
theorem hosted_start (layer : Layer) (limit : Nat) (readTime : TimeCode) :
    (start layer limit readTime).Hosted :=
  ⟨fun _ _ hcommand => (nomatch hcommand), .attach _ _ (.attach _ _ .fresh)⟩

namespace Hosted

/-- A command that calls can lead to may be registered. -/
theorem register (h : ed.Hosted) (hcommand : command.Reached) : (ed.register command).2.Hosted := by
  refine ⟨fun id' command' hfound => ?_, h.notifier⟩
  rw [commands_register] at hfound
  split at hfound
  · cases hfound
    exact hcommand
  · exact h.commands id' command' hfound

/-- A command that is taken over is a new one, and nothing is written. -/
theorem take {κ : Type} (h : ed.Hosted) (wrap : κ → AnyCommand)
    {offer : Except EditError (Offer κ)}
    (hoffer : ∀ c, offer = .ok (.ok c) → (wrap c).Reached) :
    (ed.take wrap offer).Hosted ∧ (ed.take wrap offer).store = ed.store := by
  unfold Editor.take
  rcases offer with e | bar | c
  · exact ⟨h, rfl⟩
  · exact ⟨⟨h.commands, h.notifier⟩, rfl⟩
  · exact ⟨h.register (hoffer c rfl), rfl⟩

/-- A call on one of the commands touches no quaternion. -/
theorem after (h : ed.Hosted) (hcommand : ed.commands[id]? = some command) (call : AnyCall) :
    (ed.after id (call.make command ed.session)).Hosted ∧
      ed.store.SameAt Op.IsQuaternion (ed.after id (call.make command ed.session)).store := by
  have hreached := h.commands id command hcommand
  refine ⟨⟨fun id' command' hfound => ?_, h.notifier.follow _⟩, hreached.sameAt call ed.session⟩
  rw [commands_after _ hcommand] at hfound
  split at hfound
  · cases hfound
    exact hreached.make call ed.session
  · exact h.commands id' command' hfound

/-- A call on the history changes no quaternion. -/
theorem turn (h : ed.Hosted) (call : EditCall) :
    (ed.turn call).Hosted ∧ ed.store.SameAt Op.IsQuaternion (ed.turn call).store := by
  obtain ⟨history, hturn⟩ := ed.exists_turn_eq call
  rw [hturn]
  cases hcallee : ed.callee? call with
  | none => exact ⟨⟨h.commands, h.notifier⟩, .refl _⟩
  | some callee =>
    obtain ⟨id, command, done⟩ := callee
    obtain ⟨hcommand, hdone⟩ := callee?_cases hcallee
    obtain ⟨call, rfl⟩ := AnyCommand.exists_make hdone
    obtain ⟨hhosted, hstore⟩ := h.after hcommand call
    exact ⟨⟨hhosted.commands, hhosted.notifier⟩, hstore⟩

/-- Whatever happens, the commands stay what they can be, and what the host does with them touches
no quaternion. -/
theorem live (h : ed.Hosted) (event : Event) :
    (ed.live event).Hosted ∧
      (event.OfCommands → ed.store.SameAt Op.IsQuaternion (ed.live event).store) := by
  cases event with
  | offer view position value =>
    obtain ⟨hhosted, hstore⟩ := h.take .single
      fun c (hoffer : view.offerAt ed.store position value = _) => .fresh (.offered hoffer)
    exact ⟨hhosted, fun _ => hstore ▸ .refl _⟩
  | offerMatrix view matrix =>
    obtain ⟨hhosted, hstore⟩ := h.take .matrix
      fun m (hoffer : view.offerMatrix ed.store matrix = _) => .fresh (.offeredMatrix hoffer)
    exact ⟨hhosted, fun _ => hstore ▸ .refl _⟩
  | direct id call =>
    rw [Editor.live]
    cases hcommand : ed.commands[id]? with
    | none =>
      rw [Editor.call, hcommand]
      exact ⟨h, fun _ => .refl _⟩
    | some command =>
      rw [call_eq hcommand]
      obtain ⟨hhosted, hstore⟩ := h.after hcommand call
      exact ⟨hhosted, fun _ => hstore⟩
  | history call =>
    obtain ⟨hhosted, hstore⟩ := h.turn call
    exact ⟨hhosted, fun _ => hstore⟩
  | outside s => exact ⟨⟨h.commands, h.notifier.follow s.signals⟩, fun hof => hof.elim⟩

/-- Whatever happens to an editor, its commands remain those of a host. -/
theorem liveAll (h : ed.Hosted) (events : List Event) : (ed.liveAll events).Hosted := by
  induction events generalizing ed with
  | nil => exact h
  | cons event events ih => exact ih (h.live event).1

/-- A rotation that was not executed yet and meets a quaternion leaves the editor as it was. -/
theorem execute_quaternion (h : ed.Hosted) {c : Command} {op : Op} {order : OpOrder}
    (hcommand : ed.commands[id]? = some (.single c)) (hstate : c.state = .pending)
    (horder : ed.store.order c.entity = .ok order)
    (hat : order.at? c.recipe.position = some op) (hkind : op.kind = .orient) :
    ed.execute id = (.error (.data (.unsupportedRotation .orient)), ed) ∧
      ed.call id AnyCommand.execute = (.error (.data (.unsupportedRotation .orient)), ed) := by
  have hreached := h.commands id _ hcommand
  have havoids : c.Avoids Op.IsQuaternion := hreached.avoids c List.mem_cons_self
  have hdone : (AnyCommand.single c).execute ed.session =
      ⟨.error (.data (.unsupportedRotation .orient)), .single c,
        (ed.session.signal .hold).signal .release⟩ := by
    have hexecute := Command.execute_quaternion (s := ed.session) havoids hreached.blank hstate
      horder hat hkind
    rw [AnyCommand.execute, AnyCommand.call, hexecute]
  have hafter : ed.after id ((AnyCommand.single c).execute ed.session) = ed := by
    have hcommands : ed.commands.setIfInBounds id (.single c) = ed.commands := by
      obtain ⟨hid, hget⟩ := Array.getElem?_eq_some_iff.1 hcommand
      rw [Array.setIfInBounds, dif_pos hid, ← hget, Array.set_getElem_self]
    have hnotifier : ed.notifier.hold.release = ed.notifier :=
      (h.notifier.sound.release_hold c.entity).1
    rw [hdone]
    simp [Editor.after, absorb, session, Session.signal, Notifier.follow, hcommands, hnotifier]
  constructor
  · rw [execute_of_error hcommand (by rw [hdone]), hafter]
  · rw [call_eq hcommand, hafter, hdone]

end Hosted

/-- Whatever happened to the editor, and whatever the host does with commands then, no attribute of
a quaternion is created, changed or removed. A rotation that was not executed yet and meets a
quaternion where it is to write fails, whether it is executed by the editor or past it; nothing is
written, and the listeners are told of nothing. -/
theorem quaternions_never_written (h : ed.Hosted) (events : List Event) :
    (∀ event : Event, event.OfCommands → ∀ id suffix,
      ((ed.liveAll events).live event).store.find? id (Op.nameOf .orient suffix) =
        (ed.liveAll events).store.find? id (Op.nameOf .orient suffix)) ∧
    ∀ id c order op, (ed.liveAll events).commands[id]? = some (.single c) →
      c.recipe.position = .rotate → c.state = .pending →
      (ed.liveAll events).store.order c.entity = .ok order → order.at? .rotate = some op →
      op.kind = .orient →
        (ed.liveAll events).execute id =
          (.error (.data (.unsupportedRotation .orient)), ed.liveAll events) ∧
        (ed.liveAll events).call id AnyCommand.execute =
          (.error (.data (.unsupportedRotation .orient)), ed.liveAll events) := by
  have hhosted := h.liveAll events
  refine ⟨fun event hof id suffix => (hhosted.live event).2 hof id _ ⟨suffix, rfl⟩, ?_⟩
  intro id c order op hcommand hposition hstate horder hat hkind
  exact hhosted.execute_quaternion hcommand hstate horder (hposition ▸ hat) hkind

/-- A rotation is offered on a bare store, where a quaternion is authored then. -/
theorem quaternions_never_written_on_bare :
    let quaternion : Layer := (({ store := .bare } : Layer).addOp default
      (.make .orient .float none false)).2
    let ed := (start { store := .bare } 2 .default).liveAll
      [.offer ⟨default, .default⟩ .rotate .one, .outside { layer := quaternion }]
    (ed.store.find? default "xformOp:orient").isSome ∧
      (ed.turn (.execute 0)).store.find? default "xformOp:orient" =
        ed.store.find? default "xformOp:orient" ∧
      ed.execute 0 = (.error (.data (.unsupportedRotation .orient)), ed) := by
  intro quaternion ed
  obtain ⟨hkept, hfails⟩ := quaternions_never_written (hosted_start { store := .bare } 2 .default)
    [.offer ⟨default, .default⟩ .rotate .one, .outside { layer := quaternion }]
  refine ⟨by decide +kernel, hkept (.history (.execute 0)) trivial default none, ?_⟩
  obtain ⟨c, hcommand, hposition, hstate, hentity⟩ : ∃ c, ed.commands[0]? = some (.single c) ∧
      c.recipe.position = .rotate ∧ c.state = .pending ∧ c.entity = default :=
    ⟨_, rfl, rfl, rfl, rfl⟩
  have horder : ed.store.order default = .ok ⟨[.make .orient .float none false], false⟩ := by
    decide +kernel
  exact (hfails 0 c _ _ hcommand hposition hstate (hentity ▸ horder) rfl rfl).1

end Editor

end TransformStack
