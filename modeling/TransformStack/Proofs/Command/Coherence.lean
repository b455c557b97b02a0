import TransformStack.Proofs.Command.Failing
import TransformStack.Proofs.Command.Resuming

/-!
# What the state of a command says

The state of a command says which of its fields are set. This holds after any calls, each in a
session of its own, and failed calls are no exception: an attempt to undo that is interrupted keeps
an edit, and a write that is rolled back leaves the command. So whenever a command is to write its
value, or the one that it wrote last, there is one.
-/

namespace TransformStack

namespace Command

variable {c c' : Command} {value : Vector3} {s : Session}

/-! ## What a call makes of a command -/

/-- What a call can make of a command, whatever the store it is made on. -/
inductive Becomes (c : Command) : Command → Prop where
  | idle : Becomes c c
  /-- Before it is executed, the command notes the value. -/
  | given (value : Vector3) (h : c.state = .unbound ∨ c.state = .pending) :
      Becomes c (c.withValue value)
  /-- An applied command notes a value that cannot be written. -/
  | taken (value : Vector3) (h : c.state.isApplied) : Becomes c { c with newValue := some value }
  | written {value : Vector3} {op : Op} {edit : Edit} {arranging : Journal}
      (h : c.state ≠ .unbound) :
      Becomes c { c with
        newValue := some value, committedValue := some value, state := c.executedState
        op := some op, journal := edit :: (arranging ++ c.journal) }
  | undone (h : c.state.isApplied) : Becomes c { c with journal := [], state := .undone }
  | interrupted {newer older : Journal} {edit : Edit} (h : c.state.isApplied)
      (hjournal : c.journal = newer ++ edit :: older) :
      Becomes c { c with journal := edit :: older }

/-- The newest edit of a write takes back the value. -/
theorem Writes.exists_newest {before after : Store} {op : Op} {journal : Journal}
    (h : c.Writes value before after op journal) :
    ∃ previous arranging,
      journal = .changed c.entity op.attributeName .default previous :: arranging := by
  obtain ⟨tx, hrun, -, rfl⟩ := h
  obtain ⟨mid, stored, -, -, hset⟩ := write_eq_ok_iff.1 hrun
  obtain ⟨previous, store, -, -, rfl⟩ := Transaction.setValue_eq_ok_iff.1 hset
  exact ⟨previous, mid.journal, rfl⟩

/-- A value that is applied leaves an op and at least one edit. -/
theorem exists_edit_of_apply (hok : (c.apply value s).outcome = .ok ()) :
    ∃ op edit arranging, (c.apply value s).command =
      { c with op := some op, journal := edit :: (arranging ++ c.journal) } := by
  obtain ⟨op, journal, hwrites, hcommand⟩ := apply_of_ok hok
  obtain ⟨previous, arranging, rfl⟩ := hwrites.exists_newest
  exact ⟨op, _, arranging, hcommand⟩

/-- A command that has a value to write is not unbound. -/
theorem ne_unbound_of_toWrite? (h : c.toWrite? = some value) : c.state ≠ .unbound := by
  intro hstate
  rw [toWrite?, hstate] at h
  cases h

/-- An applied command is not unbound. -/
theorem ne_unbound_of_applied (h : c.state.isApplied) : c.state ≠ .unbound := by
  intro hstate
  rw [hstate] at h
  cases h

/-- A command whose value is written stands applied. -/
theorem isApplied_executedState (h : c.state ≠ .unbound) : c.executedState.isApplied := by
  unfold executedState
  cases hstate : c.state
  case unbound => exact absurd hstate h
  all_goals rfl

/-- Giving a value makes of a command only what calls can make of it. -/
theorem set_becomes (c : Command) (value : Vector3) (s : Session) :
    c.Becomes (c.set value s).command := by
  cases hfinite : value.isFinite with
  | false =>
    rw [set_of_not_finite hfinite]
    exact .idle
  | true =>
    rcases c.state_cases with hwaiting | happlied | hundone
    · rw [set_of_waiting hfinite hwaiting]
      exact .given value hwaiting
    · cases happly : (Command.apply { c with newValue := some value } value s).outcome with
      | error e =>
        rw [set_of_applied_of_error happlied hfinite happly, command_apply_of_error happly]
        exact .taken value happlied
      | ok u =>
        obtain ⟨op, edit, arranging, hcommand⟩ := exists_edit_of_apply happly
        have hwritten : c.Becomes { c with
            newValue := some value, committedValue := some value, state := c.executedState
            op := some op, journal := edit :: (arranging ++ c.journal) } :=
          .written (ne_unbound_of_applied happlied)
        rw [executedState_of_applied happlied] at hwritten
        rwa [set_of_applied happlied hfinite happly, hcommand]
    · rw [set_of_undone hfinite hundone]
      exact .idle

/-- So does giving the value of an attribute. -/
theorem setValue_becomes (c : Command) (value : Value) (s : Session) :
    c.Becomes (c.setValue value s).command := by
  unfold Command.setValue
  split
  · exact .idle
  · split
    · exact set_becomes c _ s
    · exact .idle

/-- So does executing. -/
theorem execute_becomes (c : Command) (s : Session) : c.Becomes (c.execute s).command := by
  cases hwrite : c.toWrite? with
  | none =>
    rw [execute_of_none hwrite]
    exact .idle
  | some value =>
    cases happly : (c.apply value s).outcome with
    | error e =>
      rw [execute_of_error hwrite happly, command_apply_of_error happly]
      exact .idle
    | ok u =>
      obtain ⟨op, edit, arranging, hcommand⟩ := exists_edit_of_apply happly
      rw [execute_of_ok hwrite happly, hcommand]
      exact .written (ne_unbound_of_toWrite? hwrite)

/-- So does undoing, also where it is interrupted. -/
theorem undo_becomes (c : Command) (s : Session) : c.Becomes (c.undo s).command := by
  cases happlied : c.state.isApplied with
  | false =>
    rw [undo_idle happlied]
    exact .idle
  | true =>
    obtain ⟨newer, hsplit, -, hleaves⟩ := undo_reverts happlied s
    have hmeets := undo_meets happlied s
    cases houtcome : (c.undo s).outcome with
    | ok u =>
      rw [hmeets.ok houtcome]
      exact .undone happlied
    | error e =>
      dsimp only at hsplit hleaves
      rw [houtcome] at hleaves
      rw [hmeets.error e houtcome]
      -- What is left begins with the edit that could not be reverted.
      generalize (c.undo s).command.journal = left at hsplit hleaves
      cases hleaves with
      | stopped hfails => exact .interrupted happlied hsplit

/-- So does redoing. -/
theorem redo_becomes (c : Command) (s : Session) : c.Becomes (c.redo s).command := by
  by_cases hstate : c.state = .undone
  · rw [← execute_of_undone hstate]
    exact execute_becomes c s
  · rw [redo_idle fun value h => hstate h.1]
    exact .idle

/-- Every call makes of a command only what calls can make of it. -/
theorem call_becomes (c : Command) (s : Session) (call : CommandCall) :
    c.Becomes (c.call s call).command := by
  cases call with
  | set value => exact set_becomes c value s
  | setValue value => exact setValue_becomes c value s
  | execute => exact execute_becomes c s
  | undo => exact undo_becomes c s
  | redo => exact redo_becomes c s

/-! ## Coherent commands -/

/-- The state of a command says which of its fields are set. -/
structure Coherent (c : Command) : Prop where
  unbound : c.state = .unbound → c.newValue = none
  bound : c.state ≠ .unbound → c.newValue.isSome
  waiting : c.state = .unbound ∨ c.state = .pending →
    c.committedValue = none ∧ c.op = none ∧ c.journal = []
  applied : c.state.isApplied → c.committedValue.isSome ∧ c.op.isSome ∧ c.journal ≠ []
  undone : c.state = .undone → c.committedValue.isSome ∧ c.journal = []

/-- An applied command is coherent if all of its fields are set. -/
theorem coherent_of_applied (happlied : c.state.isApplied) (hnew : c.newValue.isSome)
    (hcommitted : c.committedValue.isSome) (hop : c.op.isSome) (hjournal : c.journal ≠ []) :
    c.Coherent := by
  rcases CommandState.isApplied_iff.1 happlied with hstate | hstate
  all_goals
    refine ⟨fun h => ?_, fun _ => hnew, fun h => ?_, fun _ => ⟨hcommitted, hop, hjournal⟩,
      fun h => ?_⟩ <;> simp [hstate] at h

namespace Coherent

/-- A command that waits stays coherent when it notes a value. -/
theorem withValue (h : c.Coherent) (hwaiting : c.state = .unbound ∨ c.state = .pending)
    (value : Vector3) : (c.withValue value).Coherent :=
  ⟨nofun, fun _ => rfl, fun _ => h.waiting hwaiting, nofun, nofun⟩

/-- Whatever a call makes of a coherent command is coherent. -/
theorem of_becomes (h : c.Coherent) (hbecomes : c.Becomes c') : c'.Coherent := by
  cases hbecomes with
  | idle => exact h
  | given value hwaiting => exact h.withValue hwaiting value
  | taken value happlied =>
    obtain ⟨hcommitted, hop, hjournal⟩ := h.applied happlied
    exact coherent_of_applied happlied rfl hcommitted hop hjournal
  | written hbound =>
    exact coherent_of_applied (isApplied_executedState hbound) rfl rfl rfl (List.cons_ne_nil _ _)
  | undone happlied =>
    have hnew : c.newValue.isSome := h.bound (ne_unbound_of_applied happlied)
    have hcommitted : c.committedValue.isSome := (h.applied happlied).1
    refine ⟨nofun, fun _ => hnew, fun hstate => ?_, nofun, fun _ => ⟨hcommitted, rfl⟩⟩
    rcases hstate with hstate | hstate <;> cases hstate
  | interrupted happlied =>
    obtain ⟨hcommitted, hop, -⟩ := h.applied happlied
    have hnew : c.newValue.isSome := h.bound (ne_unbound_of_applied happlied)
    exact coherent_of_applied happlied hnew hcommitted hop (List.cons_ne_nil _ _)

end Coherent

/-! ## Commands after any calls -/

/-- A command as it is made, with a value or without one. -/
def make (entity : EntityId) (recipe : Recipe) (converter : Converter) (value? : Option Vector3) :
    Command :=
  value?.elim { entity, recipe, converter } (withValue { entity, recipe, converter })

/-- What calls make of a command, each in a session of its own. -/
def performed (c : Command) : List (Session × CommandCall) → Command
  | [] => c
  | (s, call) :: calls => (c.call s call).command.performed calls

/-- A command is coherent as it is made, with or without a value. -/
theorem coherent_make (entity : EntityId) (recipe : Recipe) (converter : Converter)
    (value? : Option Vector3) : (make entity recipe converter value?).Coherent := by
  have hbare : Coherent { entity, recipe, converter } :=
    ⟨fun _ => rfl, fun hbound => absurd rfl hbound, fun _ => ⟨rfl, rfl, rfl⟩, nofun, nofun⟩
  cases value? with
  | none => exact hbare
  | some value => exact hbare.withValue (.inl rfl) value

/-- A coherent command is coherent after any calls. -/
theorem Coherent.performed (h : c.Coherent) (calls : List (Session × CommandCall)) :
    (c.performed calls).Coherent := by
  induction calls generalizing c with
  | nil => exact h
  | cons made calls ih => exact ih (h.of_becomes (call_becomes c made.1 made.2))

/-! ## Values to write -/

/-- The call applies a value: it succeeds or fails as that does, and leaves the same session. -/
def Applies (act : Command → Session → Call Command) (c : Command) (value : Vector3) : Prop :=
  ∀ s, (act c s).outcome = (c.apply value s).outcome ∧
    (act c s).session = (c.apply value s).session

/-- Where there is a value to write, executing applies it. -/
theorem execute_applies (hwrite : c.toWrite? = some value) : Applies execute c value := by
  intro s
  cases happly : (c.apply value s).outcome with
  | error e =>
    rw [execute_of_error hwrite happly]
    exact ⟨happly, rfl⟩
  | ok u =>
    rw [execute_of_ok hwrite happly]
    exact ⟨happly, rfl⟩

/-- An undone command with a value applies it when it is redone. -/
theorem redo_applies (hstate : c.state = .undone) (hvalue : c.committedValue = some value) :
    Applies redo c value := by
  intro s
  rw [← execute_of_undone hstate]
  exact execute_applies (by rw [toWrite?, hstate, hvalue]) s

/-- A coherent command that waits or is applied has a value, and executing applies it. -/
theorem Coherent.exists_newValue (h : c.Coherent)
    (hstate : c.state = .pending ∨ c.state.isApplied) :
    ∃ value, c.newValue = some value ∧ Applies execute c value := by
  have hwrite : c.toWrite? = c.newValue ∧ c.state ≠ .unbound := by
    rcases hstate with hpending | happlied
    · exact ⟨by rw [toWrite?, hpending], by rw [hpending]; decide⟩
    · exact ⟨toWrite?_of_applied happlied, ne_unbound_of_applied happlied⟩
  obtain ⟨value, hvalue⟩ := Option.isSome_iff_exists.1 (h.bound hwrite.2)
  exact ⟨value, hvalue, execute_applies (hwrite.1.trans hvalue)⟩

/-- A coherent command that is undone has a value, and both executing and redoing apply it. -/
theorem Coherent.exists_committedValue (h : c.Coherent) (hstate : c.state = .undone) :
    ∃ value, c.committedValue = some value ∧ Applies execute c value ∧ Applies redo c value := by
  obtain ⟨value, hvalue⟩ := Option.isSome_iff_exists.1 (h.undone hstate).1
  refine ⟨value, hvalue, execute_applies ?_, redo_applies hstate hvalue⟩
  rw [toWrite?, hstate, hvalue]

/-- A command is coherent after any calls, whatever becomes of the store between them and whichever
of them fail. So a command that is executed while it is pending or applied has a value to write, and
one that is executed or redone while it is undone has one that it wrote. -/
theorem performed_coherent (entity : EntityId) (recipe : Recipe) (converter : Converter)
    (value? : Option Vector3) (calls : List (Session × CommandCall)) :
    let c := (make entity recipe converter value?).performed calls
    c.Coherent ∧
      (c.state = .pending ∨ c.state.isApplied →
        ∃ value, c.newValue = some value ∧ Applies execute c value) ∧
      (c.state = .undone →
        ∃ value, c.committedValue = some value ∧
          Applies execute c value ∧ Applies redo c value) := by
  intro c
  have hcoherent : c.Coherent := (coherent_make entity recipe converter value?).performed calls
  exact ⟨hcoherent, hcoherent.exists_newValue, hcoherent.exists_committedValue⟩

/-- A command is coherent through all states, though its first execution is refused, then a value
that it is given, and though undoing it is interrupted. Redone, it holds the value that it wrote. -/
theorem performed_coherent_through_failures :
    let on (store : Store) : Session := { layer := { store } }
    let store := (AnyCommand.translation.execute (on .bare)).session.store
    let calls : List (Session × CommandCall) :=
      [(on .bare, .set .one), (on (Store.bare.setReadOnly true), .execute), (on .bare, .execute),
        (on (store.setReadOnly true), .set .zero),
        (on (store.alter default Op.orderName fun _ => none), .undo), (on store, .undo),
        (on .bare, .redo)]
    let after (n : Nat) : Command :=
      (make default ⟨.translate, .translate, .double⟩ .vector none).performed (calls.take n)
    (List.range 8).map (fun n => ((after n).state, (after n).newValue, (after n).journal.length)) =
        [(.unbound, none, 0), (.pending, some .one, 0), (.pending, some .one, 0),
          (.committed, some .one, 4), (.committed, some .zero, 4), (.committed, some .zero, 3),
          (.undone, some .zero, 0), (.redone, some .one, 4)] ∧
      (∀ n, (after n).Coherent) ∧
      (∃ value, (after 5).newValue = some value ∧ Applies execute (after 5) value) ∧
      ∃ value, (after 6).committedValue = some value ∧ Applies redo (after 6) value := by
  intro on store calls after
  have hcommitted : (after 5).state.isApplied := by decide +kernel
  have hundone : (after 6).state = .undone := by decide +kernel
  obtain ⟨value, hvalue, -, hredo⟩ := (performed_coherent ..).2.2 hundone
  exact ⟨by decide +kernel, fun n => (performed_coherent ..).1,
    (performed_coherent ..).2.1 (.inr hcommitted), value, hvalue, hredo⟩

end Command

end TransformStack
