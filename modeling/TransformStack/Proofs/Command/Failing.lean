import TransformStack.Proofs.Command.Redoing
import TransformStack.Proofs.Command.Living

/-!
# What a failed call leaves

A call other than undoing that fails leaves the store, and all of the command but one thing: an
applied command keeps the value that it was given, though the value could not be written. Undoing
and redoing do not look at that value. Executing does, so an applied command that is executed later
writes the value whose write failed.
-/

namespace TransformStack

/-- The value that a call gives to the command. -/
def CommandCall.value? : CommandCall → Option Vector3
  | set v => some v
  | setValue value => value.toVector?
  | execute | undo | redo => none

namespace Command

variable {c c' : Command} {value : Vector3} {s : Session} {call : CommandCall}

/-- The value that an applied command takes from a call, to write it at once. -/
def taken? (c : Command) (call : CommandCall) : Option Vector3 :=
  if c.state.isApplied then call.value?.filter (·.isFinite) else none

/-- The command that a failed call leaves: it has taken the value. -/
def failed (c : Command) (call : CommandCall) : Command :=
  { c with newValue := (c.taken? call).or c.newValue }

/-- A call on either of two commands succeeds or fails alike, and leaves the same session. -/
def SameEffect (act : Command → Session → Call Command) (c c' : Command) : Prop :=
  ∀ s, (act c s).outcome = (act c' s).outcome ∧ (act c s).session = (act c' s).session

/-! ## The value to write next -/

/-- Applying a value does not look at the value to write next. -/
theorem apply_newValue (c : Command) (new : Option Vector3) (value : Vector3) (s : Session) :
    Command.apply { c with newValue := new } value s =
      { c.apply value s with command := { (c.apply value s).command with newValue := new } } := by
  have hrun : Command.write { c with newValue := new } value = c.write value := rfl
  rcases apply_cases c value s with ⟨op, tx, hwrite, happly⟩ | ⟨e, tx, hwrite, happly⟩ <;>
    rcases apply_cases { c with newValue := new } value s with
      ⟨op', tx', hwrite', happly'⟩ | ⟨e', tx', hwrite', happly'⟩ <;>
    rw [hrun, hwrite] at hwrite' <;> cases hwrite' <;> rw [happly, happly']

/-- The value that is to be written next plays no part in undoing. -/
theorem sameEffect_undo (c : Command) (new : Option Vector3) :
    SameEffect undo { c with newValue := new } c := by
  intro s
  unfold undo
  dsimp only
  split
  · rcases s.guarded c.journal.revert with ⟨⟨e | u, journal⟩, s'⟩ <;> exact ⟨rfl, rfl⟩
  · exact ⟨rfl, rfl⟩

/-- The value that is to be written next plays no part in redoing. -/
theorem sameEffect_redo (c : Command) (new : Option Vector3) :
    SameEffect redo { c with newValue := new } c := by
  intro s
  unfold redo
  dsimp only
  split
  · next value _ _ =>
    rw [apply_newValue]
    rcases c.apply value s with ⟨e | u, c', s'⟩ <;> exact ⟨rfl, rfl⟩
  · exact ⟨rfl, rfl⟩

/-! ## Failed calls -/

/-- A call that takes no value leaves a command that fails as it was. -/
theorem failed_of_none (h : c.taken? call = none) : c.failed call = c := by
  rw [failed, h]
  rfl

/-- A call that takes a value leaves a command that fails with that value. -/
theorem failed_of_some (h : c.taken? call = some value) :
    c.failed call = { c with newValue := some value } := by
  rw [failed, h]
  rfl

/-- A call without a finite value takes none. -/
theorem taken?_eq_none (h : call.value?.filter (·.isFinite) = none) : c.taken? call = none := by
  rw [taken?, h, ite_self]

/-- An applied command takes every finite value. -/
theorem taken?_set (happlied : c.state.isApplied) (hfinite : value.isFinite) :
    c.taken? (.set value) = some value := by
  rw [taken?, if_pos happlied, CommandCall.value?, Option.filter_some_pos hfinite]

/-- A command that cannot be executed stays what it was, and so does the store. -/
theorem execute_remains (c : Command) (s : Session) :
    (c.execute s).Meets (fun _ _ => True) (c.Remains s) := by
  cases hwrite : c.toWrite? with
  | none =>
    rw [execute_of_none hwrite]
    exact .of_ok rfl trivial
  | some value =>
    cases happly : (c.apply value s).outcome with
    | error e =>
      rw [execute_of_error hwrite happly]
      exact apply_remains c value s
    | ok u =>
      rw [execute_of_ok hwrite happly]
      exact .of_ok happly trivial

/-- Where giving a value fails, the command has taken the value or is as it was. -/
theorem set_remains (c : Command) (value : Vector3) (s : Session) :
    (c.set value s).Meets (fun _ _ => True) ((c.failed (.set value)).Remains s) := by
  cases hfinite : value.isFinite with
  | false =>
    have hnone : c.taken? (.set value) = none := taken?_eq_none (Option.filter_some_neg hfinite)
    rw [set_of_not_finite hfinite, failed_of_none hnone]
    exact .of_error rfl ⟨rfl, fun _ => rfl⟩
  | true =>
    rcases c.state_cases with hwaiting | happlied | hundone
    · rw [set_of_waiting hfinite hwaiting]
      exact .of_ok rfl trivial
    · rw [failed_of_some (taken?_set happlied hfinite)]
      cases happly : (Command.apply { c with newValue := some value } value s).outcome with
      | error e =>
        rw [set_of_applied_of_error happlied hfinite happly]
        exact apply_remains _ value s
      | ok u =>
        rw [set_of_applied happlied hfinite happly]
        exact .of_ok happly trivial
    · rw [set_of_undone hfinite hundone]
      exact .of_ok rfl trivial

/-- Where giving the value of an attribute fails, the command has taken it or is as it was. -/
theorem setValue_remains (c : Command) (value : Value) (s : Session) :
    (c.setValue value s).Meets (fun _ _ => True) ((c.failed (.setValue value)).Remains s) := by
  unfold Command.setValue
  split
  · exact .of_ok rfl trivial
  · split
    · next v hvector =>
      have hsame : c.failed (.setValue value) = c.failed (.set v) := by
        have hvalue : (CommandCall.setValue value).value? = (CommandCall.set v).value? := hvector
        rw [failed, failed, taken?, taken?, hvalue]
      rw [hsame]
      exact set_remains c v s
    · next hvector =>
      rw [failed_of_none (taken?_eq_none (by rw [CommandCall.value?, hvector]; rfl))]
      exact .of_error rfl ⟨rfl, fun _ => rfl⟩

/-- A call but undoing that fails leaves the store, and the command but for the value it took. -/
theorem call_remains (c : Command) (s : Session) (hundo : call ≠ .undo) :
    (c.call s call).Meets (fun _ _ => True) ((c.failed call).Remains s) := by
  cases call with
  | set v => exact set_remains c v s
  | setValue value => exact setValue_remains c value s
  | execute =>
    rw [failed_of_none (taken?_eq_none (Option.filter_none _))]
    exact execute_remains c s
  | undo => exact absurd rfl hundo
  | redo =>
    rw [failed_of_none (taken?_eq_none (Option.filter_none _))]
    exact redo_remains c s

/-! ## Later calls -/

/-- Wherever an applied command is executed, its value is then in the op that it notes. -/
theorem execute_writes (happlied : c.state.isApplied) (hvalue : c.newValue = some value)
    (hok : (c.execute s).outcome = .ok ()) :
    ∃ op stored, (c.execute s).command.op = some op ∧ c.converter.store op value = .ok stored ∧
      (c.execute s).session.store.authored? c.entity op.attributeName .default =
        .ok (some stored) := by
  have hwrite : c.toWrite? = some value := (toWrite?_of_applied happlied).trans hvalue
  have happly := apply_of_execute_ok hwrite hok
  obtain ⟨op, journal, hwrites, hcommand⟩ := apply_of_ok happly
  obtain ⟨mid, stored, -, hstored, hset⟩ := hwrites.exists_target
  rw [execute_of_ok hwrite happly, hcommand]
  exact ⟨op, stored, rfl, hstored, Store.authored?_setValue hset⟩

/-- A call but undoing that fails leaves the store, and the state and the op of the command. The
value to write next is another one exactly if the command is applied and the call gives it another
one. Undoing and redoing it later has the same effect as if the failed call had not been made, and
so has executing it if that value is the same. Otherwise executing it writes the value that was
given. -/
theorem failed_call_keeps {e : EditError} (hundo : call ≠ .undo)
    (herror : (c.call s call).outcome = .error e) :
    let left := (c.call s call).command
    left.state = c.state ∧ left.op = c.op ∧
      left.newValue = (c.taken? call).or c.newValue ∧
      (s.store.OrdersDeclared → (c.call s call).session.store = s.store) ∧
      SameEffect undo left c ∧ SameEffect redo left c ∧
      (left.newValue = c.newValue → SameEffect execute left c) ∧
      ∀ value, c.taken? call = some value → ∀ later : Session,
        (left.execute later).outcome = .ok () →
        ∃ op stored, (left.execute later).command.op = some op ∧
          c.converter.store op value = .ok stored ∧
          (left.execute later).session.store.authored? c.entity op.attributeName .default =
            .ok (some stored) := by
  intro left
  obtain ⟨hleft, hstore⟩ := (call_remains c s hundo).error e herror
  have hcommand : left = { c with newValue := (c.taken? call).or c.newValue } := hleft
  clear_value left
  subst hcommand
  refine ⟨rfl, rfl, rfl, hstore, sameEffect_undo c _, sameEffect_redo c _, fun hsame later => ?_,
    fun value hvalue later hok => ?_⟩
  · have hsame : (c.taken? call).or c.newValue = c.newValue := hsame
    rw [hsame]
    exact ⟨rfl, rfl⟩
  · have happlied : c.state.isApplied := by
      by_contra hnot
      rw [taken?, if_neg hnot] at hvalue
      cases hvalue
    exact execute_writes happlied (by rw [hvalue]; rfl) hok

/-- A value that a closed store refuses leaves the state of the command and the effect of undoing
it. -/
theorem failed_call_keeps_on_closed :
    let done := AnyCommand.translation.execute { layer := { store := .bare } }
    let closed : Session := { layer := { store := done.session.store.setReadOnly true } }
    let call := done.command.call closed (.set Vector3.zero)
    call.outcome = .error (.structural (.writeRefused "xformOp:translate" default)) ∧
      call.command.state = .committed ∧ call.command.newValue = some Vector3.zero ∧
      SameEffect undo call.command done.command := by
  intro done closed call
  have herror : call.outcome =
      .error (.structural (.writeRefused "xformOp:translate" default)) := by decide +kernel
  have hstate : done.command.state = .committed := by decide +kernel
  have hnew : (done.command.taken? (.set Vector3.zero)).or done.command.newValue =
      some Vector3.zero := by decide +kernel
  obtain ⟨hkept, -, hvalue, -, hundo, -⟩ :=
    failed_call_keeps (by simp) herror
  exact ⟨herror, hkept.trans hstate, hvalue.trans hnew, hundo⟩

/-- Executed again once the store is open, the command writes the value that was refused, and not
the one that it had written. -/
theorem refused_value_written_later :
    let done := AnyCommand.translation.execute { layer := { store := .bare } }
    let closed : Session := { layer := { store := done.session.store.setReadOnly true } }
    let call := done.command.call closed (.set Vector3.zero)
    let opened : Session := { layer := { store := call.session.store.setReadOnly false } }
    let authored (c : Command) :=
      (c.execute opened).session.store.authored? default "xformOp:translate" .default
    call.outcome = .error (.structural (.writeRefused "xformOp:translate" default)) ∧
      done.command.newValue = some Vector3.one ∧ call.command.newValue = some Vector3.zero ∧
      authored done.command = .ok (some (.double3 Vector3.one)) ∧
      authored call.command = .ok (some (.double3 Vector3.zero)) := by
  decide +kernel

end Command

end TransformStack
