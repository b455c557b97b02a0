import TransformStack.Proofs.Command.Passing
import TransformStack.Proofs.Editor.Calls
import TransformStack.Proofs.Editor.Notices

/-!
# One notice for each edit

However many writes a call on the history comes to, kept, rolled back or undone, every listener is
told of the entity of the command once, when the call is over. Where nothing was written nobody is
told anything, and where the host holds notices back the entity waits with the others.
-/

namespace TransformStack

/-! ## Following a session -/

namespace Session

variable {id : EntityId} {s last : Session} {trail : List Layer} {n : Notifier}

/-- While notices are held back, the writes of a session come to one change of the entity. -/
theorem Passes.follow (h : s.Passes id trail last)
    (hsound : (s.signals.foldl Notifier.follow n).Sound)
    (hheld : (s.signals.foldl Notifier.follow n).isHeld = true) :
    last.signals.foldl Notifier.follow n =
      if trail = [] then s.signals.foldl Notifier.follow n
      else (s.signals.foldl Notifier.follow n).mark id := by
  -- A write marks the entity, and marking it twice is marking it once. A guard inside another is
  -- released while notices are still held back, so that its marks stay pending.
  induction h with
  | done s => rfl
  | @wrote s mid trail layer _ _ ih =>
    have hsignals : (mid.wrote id layer).signals.foldl Notifier.follow n =
        (mid.signals.foldl Notifier.follow n).mark id := by
      simp [Session.wrote, Session.signal, Notifier.follow]
    have hsome : trail ++ [layer] ≠ [] := by simp
    rw [if_neg hsome, hsignals, ih hsound hheld]
    split
    · rfl
    · exact Notifier.mark_mark hheld id
  | counted _ refusals _ ih => exact ih hsound hheld
  | noted _ entry ih => exact ih hsound hheld
  | @guarded s mid last trail inner _ _ ih ihinner =>
    have hhold : (mid.signal .hold).signals.foldl Notifier.follow n =
        (mid.signals.foldl Notifier.follow n).hold := by
      simp [Session.signal, Notifier.follow]
    have hrelease : (last.signal .release).signals.foldl Notifier.follow n =
        (last.signals.foldl Notifier.follow n).release := by
      simp [Session.signal, Notifier.follow]
    have hmid := ih hsound hheld
    have hsoundMid : (mid.signals.foldl Notifier.follow n).Sound := by
      rw [hmid]
      split
      · exact hsound
      · exact hsound.mark id
    have hinner := ihinner (hhold ▸ hsoundMid.hold) (hhold ▸ Notifier.isHeld_hold _)
    obtain ⟨hidle, honce⟩ := hsoundMid.release_hold id
    rw [hrelease, hinner, hhold]
    by_cases hempty : inner = []
    · rw [if_pos hempty, hidle, hmid, hempty, List.append_nil]
    · have hsome : trail ++ inner ≠ [] := by simp [hempty]
      rw [if_neg hempty, honce, hmid, if_neg hsome]
      split
      · rfl
      · exact Notifier.mark_mark hheld id

/-- All that a call tells comes to one change of the entity, if anything was written, whatever was
told before. -/
theorem Brackets.follow_after (h : s.Brackets id trail last)
    (hsound : (s.signals.foldl Notifier.follow n).Sound) :
    last.signals.foldl Notifier.follow n =
      if trail = [] then s.signals.foldl Notifier.follow n
      else (s.signals.foldl Notifier.follow n).mark id := by
  cases h with
  | idle => rfl
  | @guarded trail last h =>
    have hstart : (s.signal .hold).signals.foldl Notifier.follow n =
        (s.signals.foldl Notifier.follow n).hold := by
      simp [Session.signal, Notifier.follow]
    have hrelease : (last.signal .release).signals.foldl Notifier.follow n =
        (last.signals.foldl Notifier.follow n).release := by
      simp [Session.signal, Notifier.follow]
    obtain ⟨hidle, honce⟩ := hsound.release_hold id
    rw [hrelease, h.follow (hstart ▸ hsound.hold) (hstart ▸ Notifier.isHeld_hold _), hstart]
    split
    · exact hidle
    · exact honce

/-- A notifier that follows a call on a command marks the entity once, or not at all. -/
theorem Brackets.follow (h : s.Brackets id trail last) (hsignals : s.signals = [])
    (hsound : n.Sound) :
    last.signals.foldl Notifier.follow n = if trail = [] then n else n.mark id := by
  have hstart : s.signals.foldl Notifier.follow n = n := by
    rw [hsignals]
    rfl
  rw [h.follow_after (by rwa [hstart]), hstart]

end Session

/-! ## Calls on the history -/

/-- A call on the history of an editor. -/
inductive EditCall where
  | execute (id : CommandId)
  | undo
  | redo

namespace Editor

/-- The editor after a call on its history. -/
def turn (ed : Editor) : EditCall → Editor
  | .execute id => (ed.execute id).2
  | .undo => ed.undo.2
  | .redo => ed.redo.2

/-- The command that a call is made on, with its number and with what it does. -/
def callee? (ed : Editor) : EditCall → Option (CommandId × AnyCommand × Call AnyCommand)
  | .execute id => ed.commands[id]?.map fun command => (id, command, command.execute ed.session)
  | .undo => do
    let id ← ed.history.undo.head?
    let command ← ed.commands[id]?
    return (id, command, command.undo ed.session)
  | .redo => do
    let id ← ed.history.redo.head?
    let command ← ed.commands[id]?
    return (id, command, command.redo ed.session)

variable {ed : Editor} {call : EditCall} {id : CommandId} {command : AnyCommand}
  {done : Call AnyCommand}

/-- A call changes what it makes of its command, and the history. -/
theorem exists_turn_eq (ed : Editor) (call : EditCall) :
    ∃ history, ed.turn call =
      { match ed.callee? call with
        | none => ed
        | some (id, _, done) => ed.after id done with history } := by
  cases call with
  | execute id =>
    simp only [turn, callee?]
    cases hcommand : ed.commands[id]? with
    | none => exact ⟨_, by simp [execute, Editor.call, hcommand]; rfl⟩
    | some command =>
      cases hdone : (command.execute ed.session).outcome with
      | ok u => exact ⟨_, by rw [execute_of_ok hcommand hdone]; rfl⟩
      | error e => exact ⟨_, by rw [execute_of_error hcommand hdone]; rfl⟩
  | undo =>
    simp only [turn, callee?]
    cases hundo : ed.history.undo with
    | nil => exact ⟨_, by rw [undo_of_nil hundo]; rfl⟩
    | cons id older =>
      simp only [List.head?_cons, Option.bind_eq_bind, Option.bind_some]
      cases hcommand : ed.commands[id]? with
      | none => exact ⟨_, by simp [undo, hundo, Editor.call, hcommand]; rfl⟩
      | some command =>
        cases hdone : (command.undo ed.session).outcome with
        | ok u => exact ⟨_, by rw [undo_of_ok hundo hcommand hdone]; rfl⟩
        | error e => exact ⟨_, by simp [undo, hundo, call_eq hcommand, hdone]; rfl⟩
  | redo =>
    simp only [turn, callee?]
    cases hredo : ed.history.redo with
    | nil => exact ⟨_, by rw [redo_of_nil hredo]; rfl⟩
    | cons id others =>
      simp only [List.head?_cons, Option.bind_eq_bind, Option.bind_some]
      cases hcommand : ed.commands[id]? with
      | none => exact ⟨_, by simp [redo, hredo, Editor.call, hcommand]; rfl⟩
      | some command =>
        cases hdone : (command.redo ed.session).outcome with
        | ok u => exact ⟨_, by rw [redo_of_ok hredo hcommand hdone]; rfl⟩
        | error e => exact ⟨_, by rw [redo_of_error hredo hcommand hdone]; rfl⟩

/-- The command that a call is made on is in the table, and is executed, undone or redone. -/
theorem callee?_cases (h : ed.callee? call = some (id, command, done)) :
    ed.commands[id]? = some command ∧ (done = command.execute ed.session ∨
      done = command.undo ed.session ∨ done = command.redo ed.session) := by
  cases call with
  | execute id =>
    obtain ⟨command, hcommand, heq⟩ := Option.map_eq_some_iff.1 h
    cases heq
    exact ⟨hcommand, .inl rfl⟩
  | undo =>
    obtain ⟨id, -, h⟩ := Option.bind_eq_some_iff.1 h
    obtain ⟨command, hcommand, heq⟩ := Option.bind_eq_some_iff.1 h
    cases heq
    exact ⟨hcommand, .inr (.inl rfl)⟩
  | redo =>
    obtain ⟨id, -, h⟩ := Option.bind_eq_some_iff.1 h
    obtain ⟨command, hcommand, heq⟩ := Option.bind_eq_some_iff.1 h
    cases heq
    exact ⟨hcommand, .inr (.inr rfl)⟩

/-- The call works on the entity of the command that it is made on. -/
theorem announces_of_callee? (h : ed.callee? call = some (id, command, done)) :
    ed.commands[id]? = some command ∧
      (command.Owns → AnyCommand.Announces command.entity ed.session done) := by
  obtain ⟨hcommand, rfl | rfl | rfl⟩ := callee?_cases h
  · exact ⟨hcommand, fun howns => howns.execute _⟩
  · exact ⟨hcommand, fun howns => howns.undo _⟩
  · exact ⟨hcommand, fun howns => howns.redo _⟩

/-- The listeners of an editor are as they can be, and its commands work on their own entities. -/
structure Announcing (ed : Editor) : Prop where
  notifier : ed.notifier.Reached
  owns : ∀ (id : CommandId) (command : AnyCommand),
    ed.commands[id]? = some command → command.Owns

/-- An editor starts with listeners as they can be. -/
theorem announcing_start (layer : Layer) (limit : Nat) (readTime : TimeCode) :
    (start layer limit readTime).Announcing :=
  ⟨.attach _ _ (.attach _ _ .fresh), fun _ _ hcommand => nomatch hcommand⟩

/-- A command that works on its own entity may be registered. -/
theorem Announcing.register (h : ed.Announcing) (howns : command.Owns) :
    (ed.register command).2.Announcing := by
  refine ⟨h.notifier, fun id' command' hcommand' => ?_⟩
  rw [commands_register] at hcommand'
  split at hcommand'
  · cases hcommand'
    exact howns
  · exact h.owns id' command' hcommand'

/-- Every call keeps it so. -/
theorem Announcing.turn (h : ed.Announcing) (call : EditCall) : (ed.turn call).Announcing := by
  obtain ⟨history, hturn⟩ := ed.exists_turn_eq call
  rw [hturn]
  cases hcallee : ed.callee? call with
  | none => exact ⟨h.notifier, h.owns⟩
  | some callee =>
    obtain ⟨id, command, done⟩ := callee
    obtain ⟨hcommand, hannounces⟩ := announces_of_callee? hcallee
    refine ⟨h.notifier.follow done.session.signals, fun id' command' hcommand' => ?_⟩
    have hafter : (ed.after id done).commands[id']? = some command' := hcommand'
    rw [commands_after done hcommand] at hafter
    split at hafter
    · cases hafter
      exact (hannounces (h.owns id command hcommand)).owns
    · exact h.owns id' command' hafter

/-- A call makes writes to the entity of its command, one after the other. If there were any, the
listeners are told of that entity once: at once, if the host does not hold notices back. -/
theorem one_notice_per_call (h : ed.Announcing) (call : EditCall) :
    match ed.callee? call with
    | none => (ed.turn call).notifier = ed.notifier ∧ (ed.turn call).layer = ed.layer
    | some (_, command, done) =>
      ∃ trail, ed.session.Passes command.entity trail done.session ∧
        (ed.turn call).layer = done.session.layer ∧
        (ed.notifier.isHeld = false → ∀ l ∈ ed.notifier.listeners,
          (ed.turn call).notifier.toldTo l.id =
            (if trail = [] then [] else [command.entity]) ++ ed.notifier.toldTo l.id) ∧
        (ed.notifier.isHeld = true →
          (ed.turn call).notifier.notices = ed.notifier.notices ∧
          (command.entity ∈ (ed.turn call).notifier.pending ↔
            trail ≠ [] ∨ command.entity ∈ ed.notifier.pending)) := by
  obtain ⟨history, hturn⟩ := ed.exists_turn_eq call
  rw [hturn]
  split
  · exact ⟨rfl, rfl⟩
  next id command done hcallee =>
  obtain ⟨hcommand, hannounces⟩ := announces_of_callee? hcallee
  obtain ⟨⟨trail, hbrackets⟩, -, -⟩ := hannounces (h.owns id command hcommand)
  -- The call is guarded as a whole: its writes come to one mark, or to none.
  have hfollow : (ed.after id done).notifier =
      if trail = [] then ed.notifier else ed.notifier.mark command.entity :=
    hbrackets.follow rfl h.notifier.sound
  refine ⟨trail, hbrackets.passes, rfl, fun hfree l hl => ?_, fun hheld => ?_⟩ <;>
    rw [hfollow] <;> split
  · rfl
  · rw [Notifier.mark_of_free hfree]
    exact (h.notifier.sound.emit (Notifier.isHeld_eq_false_iff.1 hfree) _).2 l hl
  · next hempty => exact ⟨rfl, by simp [hempty]⟩
  · next hempty =>
    rw [Notifier.mark_of_held hheld]
    refine ⟨rfl, iff_of_true ?_ (.inl hempty)⟩
    dsimp only
    split
    · assumption
    · exact List.mem_append_right _ (List.mem_singleton.2 rfl)

/-- A matrix command on a bare store, whose second op is refused: the first one is taken back, and
both listeners are told of the entity once. -/
theorem one_notice_for_refused_matrix :
    let layer : Layer := { store := .bare, refusals := { addAfter := some 1 } }
    let ed := ((start layer defaultLimit .default).register (.matrix AnyCommand.transform)).2
    let refused : StructuralCause := .addRefused .rotate .rotateXYZ default
    (ed.execute 0).1 = .error (.structural refused) ∧
      (ed.execute 0).2.store.order default = .ok ⟨[], false⟩ ∧
      ∀ l ∈ ed.notifier.listeners, (ed.turn (.execute 0)).notifier.toldTo l.id = [default] := by
  intro layer ed refused
  refine ⟨by decide +kernel, by decide +kernel, fun l hl => ?_⟩
  have hed : ed.Announcing :=
    (announcing_start layer defaultLimit .default).register
      (AnyCommand.Reached.fresh AnyCommand.fresh_transform).owns
  obtain ⟨trail, hpasses, -, hfree, -⟩ := one_notice_per_call hed (.execute 0)
  have hwritten : trail ≠ [] := by
    rintro rfl
    have hcount := hpasses.count_changed
    revert hcount
    decide +kernel
  have htold := hfree rfl l hl
  rw [if_neg hwritten] at htold
  have hbefore : ed.notifier.toldTo l.id = [] := rfl
  rw [htold, hbefore]
  rfl

end Editor

end TransformStack
