import TransformStack.Proofs.Command.Call
import TransformStack.Proofs.Command.Writing

/-!
# The life of a command

A command that is ready writes its value when it is executed. Once applied it knows the store it was
executed on and the store it made: undoing goes from the one back to the other, and redoing goes
there again. A call that fails leaves the command and the store as they were.
-/

namespace TransformStack

/-- A command stands applied in two states. -/
theorem CommandState.isApplied_iff {state : CommandState} :
    state.isApplied ↔ state = .committed ∨ state = .redone := by
  cases state <;> simp [isApplied]

namespace Command

variable {c : Command} {value : Vector3} {s : Session} {before after : Store}

/-! ## Applying a value -/

/-- A value is applied in a transaction of its own: either it is written, or it is rolled back. -/
theorem apply_cases (c : Command) (value : Vector3) (s : Session) :
    (∃ op tx, (c.write value).on (.start (s.signal .hold)) = (.ok op, tx) ∧
      c.apply value s =
        ⟨.ok (), { c with op := some op, journal := tx.journal ++ c.journal },
          tx.toSession.signal .release⟩) ∨
    ∃ e tx, (c.write value).on (.start (s.signal .hold)) = (.error e, tx) ∧
      c.apply value s = ⟨.error e, c, tx.rollback.signal .release⟩ := by
  unfold apply Session.guarded
  dsimp only
  rw [Session.transact_eq]
  rcases (c.write value).on (.start (s.signal .hold)) with ⟨e | op, tx⟩
  · exact .inr ⟨e, tx, rfl, rfl⟩
  · exact .inl ⟨op, tx, rfl, rfl⟩

/-- Applying a value leaves all of a command but the op and the journal. -/
theorem exists_apply_command (c : Command) (value : Vector3) (s : Session) :
    ∃ op journal, (c.apply value s).command = { c with op, journal } := by
  rcases apply_cases c value s with ⟨op, tx, -, happly⟩ | ⟨e, tx, -, happly⟩
  · exact ⟨some op, tx.journal ++ c.journal, by rw [happly]⟩
  · exact ⟨c.op, c.journal, by rw [happly]⟩

/-- A value that cannot be applied leaves the command. -/
theorem command_apply_of_error {e : EditError} (h : (c.apply value s).outcome = .error e) :
    (c.apply value s).command = c := by
  rcases apply_cases c value s with ⟨op, tx, -, happly⟩ | ⟨e', tx, -, happly⟩
  · rw [happly] at h
    cases h
  · rw [happly]

/-- Where a value is applied, the store before settles how. -/
theorem apply_of_ok (h : (c.apply value s).outcome = .ok ()) :
    ∃ op journal, c.Writes value s.store (c.apply value s).session.store op journal ∧
      (c.apply value s).command = { c with op := some op, journal := journal ++ c.journal } := by
  rcases apply_cases c value s with ⟨op, tx, hrun, happly⟩ | ⟨e, tx, -, happly⟩
  · rw [happly]
    have hfreed : (Transaction.start (s.signal .hold)).Freed
        (.start { layer := { store := s.store } }) := ⟨rfl, rfl⟩
    obtain ⟨free, hfree, hlayer, hjournal⟩ := write_unhindered _ _ _ _ hfreed hrun
    refine ⟨op, tx.journal, ⟨free, hfree, ?_, hjournal⟩, rfl⟩
    rw [Session.store, hlayer]
    rfl
  · rw [happly] at h
    cases h

/-- On a layer without refusals a value is applied wherever it can be written. -/
theorem apply_of_writes {op : Op} {journal : Journal} (h : c.Writes value before after op journal)
    (hlayer : s.layer = { store := before }) :
    (c.apply value s).outcome = .ok () ∧ (c.apply value s).session.layer = { store := after } := by
  obtain ⟨tx, hrun, rfl, rfl⟩ := h
  have hfreed : (Transaction.start { layer := { store := before } }).Freed
      (.start (s.signal .hold)) := ⟨hlayer, rfl⟩
  obtain ⟨free, hfree, hafter, -⟩ := write_unhindered _ _ _ _ hfreed hrun
  rcases apply_cases c value s with ⟨op', tx', hrun', happly⟩ | ⟨e, tx', hrun', happly⟩
  · obtain ⟨-, rfl⟩ := Prod.mk.inj (hrun'.symm.trans hfree)
    rw [happly]
    exact ⟨rfl, hafter⟩
  · cases hrun'.symm.trans hfree

/-- A value that cannot be applied leaves the command, and the store if the order is typed. -/
theorem apply_of_error_of_typed {e : EditError} (h : (c.apply value s).outcome = .error e)
    (htyped : s.store.OrderTyped c.entity) :
    (c.apply value s).command = c ∧ (c.apply value s).session.store = s.store := by
  rcases apply_cases c value s with ⟨op, tx, -, happly⟩ | ⟨e', tx, hrun, happly⟩
  · rw [happly] at h
    cases h
  rw [happly]
  have hkeeps : c.target.Keeps fun tx => tx.store.OrderTyped c.entity ∧ tx.Traced s.store := by
    refine target_keeps ?_ ?_
    · rintro tx op ⟨htyped, htraced⟩
      exact ⟨Transaction.addOp_keeps htyped fun s => htyped.addOp, htraced.addOp htyped op⟩
    · rintro tx order ⟨htyped, htraced⟩
      exact ⟨Transaction.setOrder_keeps htyped fun s => htyped.setOrder,
        htraced.setOrder htyped order⟩
  have hstart := hkeeps (.start (s.signal .hold)) ⟨htyped, rfl⟩
  rw [write_eq_error hrun] at hstart
  exact ⟨rfl, hstart.2.store_rollback⟩

/-- A value that cannot be applied leaves the command and the store. -/
theorem apply_of_error {e : EditError} (h : (c.apply value s).outcome = .error e)
    (hdeclared : s.store.OrdersDeclared) :
    (c.apply value s).command = c ∧ (c.apply value s).session.store = s.store := by
  cases horder : s.store.order c.entity with
  | ok order => exact apply_of_error_of_typed h (hdeclared.orderTyped horder)
  | error e' =>
    rcases apply_cases c value s with ⟨op, tx, -, happly⟩ | ⟨e', tx, hrun, happly⟩
    · rw [happly] at h
      cases h
    rw [happly]
    -- Without an order that can be read nothing was written.
    have hnone : c.target.on (.start (s.signal .hold)) = (.error (.store _), _) :=
      target_of_unreadable horder
    have htarget := write_eq_error hrun
    rw [hnone] at htarget
    rw [← htarget]
    exact ⟨rfl, rfl⟩

/-- What is left is a command, and the store is as it was. -/
def Remains (c : Command) (s : Session) (c' : Command) (s' : Session) : Prop :=
  c' = c ∧ (s.store.OrdersDeclared → s'.store = s.store)

/-- A value that cannot be applied leaves the command, and the store if all orders are declared. -/
theorem apply_remains (c : Command) (value : Vector3) (s : Session) :
    (c.apply value s).Meets (fun _ _ => True) (c.Remains s) :=
  ⟨fun _ => trivial, fun _ herror =>
    ⟨command_apply_of_error herror, fun hdeclared => (apply_of_error herror hdeclared).2⟩⟩

/-! ## Calls that apply a value -/

/-- Redoing a command whose value can be applied applies it and notes that it was redone. -/
theorem redo_of_ok (hstate : c.state = .undone) (hvalue : c.committedValue = some value)
    (hok : (c.apply value s).outcome = .ok ()) :
    c.redo s = { c.apply value s with
      command := { (c.apply value s).command with newValue := some value, state := .redone } } := by
  unfold redo
  rw [hstate, hvalue]
  dsimp only
  rcases hcall : c.apply value s with ⟨e | u, c', s'⟩
  · rw [hcall] at hok
    cases hok
  · rfl

/-- Redoing a command whose value cannot be applied leaves what applying it leaves. -/
theorem redo_of_error (hstate : c.state = .undone) (hvalue : c.committedValue = some value)
    {e : EditError} (herror : (c.apply value s).outcome = .error e) :
    c.redo s = c.apply value s := by
  unfold redo
  rw [hstate, hvalue]
  dsimp only
  rcases hcall : c.apply value s with ⟨e' | u, c', s'⟩
  · rfl
  · rw [hcall] at herror
    cases herror

/-- A command that is not undone has nothing to redo. -/
theorem redo_idle (h : ∀ value, ¬(c.state = .undone ∧ c.committedValue = some value)) :
    c.redo s = ⟨.ok (), c, s⟩ := by
  unfold redo
  split
  · next value hstate hvalue => exact absurd ⟨hstate, hvalue⟩ (h value)
  · rfl

/-- Executing an undone command is redoing it. -/
theorem execute_of_undone (hstate : c.state = .undone) (s : Session) : c.execute s = c.redo s := by
  unfold execute
  rw [hstate]

/-- The value that is written when the command is executed, if one is. -/
def toWrite? (c : Command) : Option Vector3 :=
  match c.state with
  | .unbound => none
  | .undone => c.committedValue
  | .pending | .committed | .redone => c.newValue

/-- The state in which the command is once it was executed. -/
def executedState (c : Command) : CommandState :=
  match c.state with
  | .pending => .committed
  | .undone => .redone
  | state => state

/-- Without a value to write nothing happens. -/
theorem execute_of_none (h : c.toWrite? = none) (s : Session) : c.execute s = ⟨.ok (), c, s⟩ := by
  unfold execute
  cases hstate : c.state <;> simp only [toWrite?, hstate] at h ⊢
  case undone => exact redo_idle fun value hvalue => nomatch h.symm.trans hvalue.2
  all_goals rw [h]

/-- A value that cannot be applied fails the execution, and that is all. -/
theorem execute_of_error (h : c.toWrite? = some value) {e : EditError}
    (herror : (c.apply value s).outcome = .error e) : c.execute s = c.apply value s := by
  unfold execute
  cases hstate : c.state <;> simp only [toWrite?, hstate, reduceCtorEq] at h
  case undone => exact redo_of_error hstate h herror
  all_goals
    rcases hcall : c.apply value s with ⟨e' | u, c', s'⟩
    · simp only [h, hcall]
    · rw [hcall] at herror
      cases herror

/-- Where the execution succeeds, the value was applied. -/
theorem apply_of_execute_ok (h : c.toWrite? = some value) (hok : (c.execute s).outcome = .ok ()) :
    (c.apply value s).outcome = .ok () := by
  cases happly : (c.apply value s).outcome with
  | ok u => rfl
  | error e =>
    rw [execute_of_error h happly, happly] at hok
    cases hok

/-- A value that is applied is the last value of the command in every respect. -/
theorem execute_of_ok (h : c.toWrite? = some value) (hok : (c.apply value s).outcome = .ok ()) :
    c.execute s = { c.apply value s with command := { (c.apply value s).command with
      newValue := some value, committedValue := some value, state := c.executedState } } := by
  obtain ⟨op, journal, hcommand⟩ := exists_apply_command c value s
  unfold execute
  cases hstate : c.state <;> simp only [toWrite?, hstate, reduceCtorEq] at h <;>
    simp only [executedState, hstate]
  case undone =>
    rw [redo_of_ok hstate h hok, hcommand, h]
  all_goals
    rcases hcall : c.apply value s with ⟨e | u, c', s'⟩ <;> rw [hcall] at hok hcommand
    · cases hok
    · obtain rfl : c' = { c with op, journal } := hcommand
      simp only [h, hcall, reduceCtorEq, if_true, if_false]

/-- An applied command writes the value that it was given last. -/
theorem toWrite?_of_applied (happlied : c.state.isApplied) : c.toWrite? = c.newValue := by
  rcases CommandState.isApplied_iff.1 happlied with hstate | hstate <;> rw [toWrite?, hstate]

/-- An applied command stays in its state when it is executed. -/
theorem executedState_of_applied (happlied : c.state.isApplied) : c.executedState = c.state := by
  rcases CommandState.isApplied_iff.1 happlied with hstate | hstate <;> rw [executedState, hstate]

/-! ## Giving values -/

/-- What becomes of a value depends on whether the command waits, is applied or is undone. -/
theorem state_cases (c : Command) :
    (c.state = .unbound ∨ c.state = .pending) ∨ c.state.isApplied ∨ c.state = .undone := by
  cases c.state <;> simp [CommandState.isApplied]

/-- A value that is not finite is rejected, and that is all. -/
theorem set_of_not_finite (hfinite : value.isFinite = false) (c : Command) (s : Session) :
    c.set value s = ⟨.error (.rejected (.notFinite value)), c, s⟩ := by
  unfold set
  rw [hfinite]
  rfl

/-- A command that has not been executed keeps the value. -/
theorem set_of_waiting (hfinite : value.isFinite)
    (hstate : c.state = .unbound ∨ c.state = .pending) (s : Session) :
    c.set value s = ⟨.ok (), c.withValue value, s⟩ := by
  unfold set
  rw [if_pos hfinite]
  rcases hstate with hstate | hstate <;> rw [hstate]

/-- An undone command ignores the value. -/
theorem set_of_undone (hfinite : value.isFinite) (hstate : c.state = .undone) (s : Session) :
    c.set value s = ⟨.ok (), c, s⟩ := by
  unfold set
  rw [if_pos hfinite, hstate]

/-- An applied command that can write a value notes it as committed. -/
theorem set_of_applied (happlied : c.state.isApplied) (hfinite : value.isFinite)
    (hok : ({ c with newValue := some value }.apply value s).outcome = .ok ()) :
    c.set value s = { { c with newValue := some value }.apply value s with
      command := { ({ c with newValue := some value }.apply value s).command with
        committedValue := some value } } := by
  unfold set
  rw [if_pos hfinite]
  generalize hcall : Command.apply { c with newValue := some value } value s = call at hok ⊢
  obtain ⟨e | u, c', s'⟩ := call
  · cases hok
  · rcases CommandState.isApplied_iff.1 happlied with hstate | hstate <;> split <;>
      first | rfl | (next hother => cases hother.symm.trans hstate)

/-- An applied command takes a value though it cannot be written. -/
theorem set_of_applied_of_error {e : EditError} (happlied : c.state.isApplied)
    (hfinite : value.isFinite)
    (herror : ({ c with newValue := some value }.apply value s).outcome = .error e) :
    c.set value s = { c with newValue := some value }.apply value s := by
  unfold set
  rw [if_pos hfinite]
  generalize hcall : Command.apply { c with newValue := some value } value s = call at herror ⊢
  obtain ⟨e' | u, c', s'⟩ := call
  · rcases CommandState.isApplied_iff.1 happlied with hstate | hstate <;> split <;>
      first | rfl | (next hother => cases hother.symm.trans hstate)
  · cases herror

/-! ## States of a life -/

/-- The command edits the op at a position of an entity, and an op that it remembers stands
there. -/
structure At (c : Command) (id : EntityId) (position : Position) : Prop where
  entity : c.entity = id
  recipe : c.recipe.position = position
  fits : c.recipe.Fits
  op : ∀ op, c.op = some op → Position.ofOp? op = some position

section

variable {id : EntityId} {position : Position} {op : Op}

/-- An op that the command finds stands at its position. -/
theorem At.ofOp?_of_opIn? (h : c.At id position) {order : OpOrder}
    (hfound : c.opIn? order = some op) : Position.ofOp? op = some position := by
  rcases Option.or_eq_some_iff.1 hfound with hlast | ⟨-, hat⟩
  · exact h.op op (Option.filter_eq_some_iff.1 hlast).1
  · have hplace := List.find?_some hat
    rw [h.recipe] at hplace
    simpa using hplace

/-- The op that a value is written to, found or made, stands at the position of the command. -/
theorem At.ofOp?_of_target (h : c.At id position) {tx tx' : Transaction}
    (htarget : c.target.on tx = (.ok op, tx')) : Position.ofOp? op = some position := by
  obtain ⟨order, -, ⟨hfound, -⟩ | ⟨-, rfl, -⟩⟩ := target_eq_ok htarget
  · exact h.ofOp?_of_opIn? hfound
  · rw [h.fits.ofOp?, h.recipe]

/-- A write goes to an op at the position of the command. -/
theorem At.ofOp? (h : c.At id position) {journal : Journal}
    (hwrites : c.Writes value before after op journal) : Position.ofOp? op = some position := by
  obtain ⟨mid, stored, htarget, -⟩ := hwrites.exists_target
  exact h.ofOp?_of_target htarget

end

/-- A command that has a value and has not been executed. -/
structure Ready (c : Command) : Prop where
  state : c.state = .pending
  value : ∃ value, c.newValue = some value
  op : c.op = none
  journal : c.journal = []
  fits : c.recipe.Fits

/-- The command stands applied, and its writes took one store to another. -/
structure Applied (c : Command) (before after : Store) : Prop where
  state : c.state.isApplied
  writes : ∃ value op, c.committedValue = some value ∧
    c.Writes value before after op c.journal ∧ c.op = some op
  typed : before.WellTyped

/-- The command stands undone, and its writes would take one store to another again. -/
structure Undone (c : Command) (before after : Store) : Prop where
  state : c.state = .undone
  writes : ∃ value op journal, c.committedValue = some value ∧
    c.Writes value before after op journal ∧ c.op = some op
  journal : c.journal = []
  typed : before.WellTyped

/-- What an applied command made of a typed store is typed. -/
theorem Applied.typed_after (h : c.Applied before after) : after.WellTyped := by
  obtain ⟨value, op, -, hwrites, -⟩ := h.writes
  exact hwrites.wellTyped h.typed

/-- An applied command was and is on a store that is open for writing. -/
theorem Applied.writable (h : c.Applied before after) :
    before.readOnly = false ∧ after.readOnly = false := by
  obtain ⟨value, op, -, hwrites, -⟩ := h.writes
  exact hwrites.writable

/-! ## Executing -/

/-- Executing a command that is ready commits its value if the value can be applied. -/
theorem Ready.execute_of_ok (h : c.Ready) (hvalue : c.newValue = some value)
    (hok : (c.apply value s).outcome = .ok ()) :
    c.execute s = { c.apply value s with command := { (c.apply value s).command with
      newValue := some value, committedValue := some value, state := .committed } } := by
  have hwrite : c.toWrite? = some value := by rw [toWrite?, h.state, hvalue]
  have hstate : c.executedState = .committed := by rw [executedState, h.state]
  rw [Command.execute_of_ok hwrite hok, hstate]

/-- Executing a command that is ready fails as applying its value does. -/
theorem Ready.execute_of_error (h : c.Ready) (hvalue : c.newValue = some value) {e : EditError}
    (herror : (c.apply value s).outcome = .error e) : c.execute s = c.apply value s :=
  Command.execute_of_error (by rw [toWrite?, h.state, hvalue]) herror

/-- A command that is ready stands applied where it can be executed. Where it cannot, it is still
ready, and the store is as it was. -/
theorem Ready.execute (h : c.Ready) (htyped : s.store.WellTyped) :
    (c.execute s).Meets (fun c' s' => c'.Applied s.store s'.store)
      fun c' s' => c' = c ∧ s'.store = s.store := by
  obtain ⟨value, hvalue⟩ := h.value
  cases happly : (c.apply value s).outcome with
  | error e =>
    rw [h.execute_of_error hvalue happly]
    exact .of_error happly (apply_of_error happly htyped.orders)
  | ok u =>
    obtain ⟨op, journal, hwrites, hcommand⟩ := apply_of_ok happly
    rw [h.execute_of_ok hvalue happly, hcommand]
    refine .of_ok happly ⟨rfl, ⟨value, op, rfl, ?_, rfl⟩, htyped⟩
    -- From here on the command remembers the op, and is to write the same by way of it.
    rw [h.journal, List.append_nil]
    exact hwrites.again h.op h.fits

/-! ## Undoing and redoing -/

/-- A command that does not stand applied has nothing to undo. -/
theorem undo_idle (h : c.state.isApplied = false) : c.undo s = ⟨.ok (), c, s⟩ := by
  unfold undo
  rw [if_neg (by rw [h]; exact Bool.false_ne_true)]

/-- Where the journal is reverted to its end, the command is undone. -/
theorem undo_of_ok {s' : Session} {journal : Journal} (h : c.state.isApplied)
    (hrevert : c.journal.revert (s.signal .hold) = ((.ok (), journal), s')) :
    c.undo s = ⟨.ok (), { c with journal, state := .undone }, s'.signal .release⟩ := by
  unfold undo Session.guarded
  rw [if_pos h, hrevert]

/-- Where reverting fails, the command stays applied and keeps what is left of the journal. -/
theorem undo_of_error {s' : Session} {journal : Journal} (h : c.state.isApplied) {e : EditError}
    (hrevert : c.journal.revert (s.signal .hold) = ((.error e, journal), s')) :
    c.undo s = ⟨.error e, { c with journal }, s'.signal .release⟩ := by
  unfold undo Session.guarded
  rw [if_pos h, hrevert]

/-- Undoing takes back what an applied command wrote, up to the first write that cannot be taken
back. -/
theorem undo_cases (c : Command) (s : Session) :
    (c.state.isApplied = false ∧ c.undo s = ⟨.ok (), c, s⟩) ∨
      c.state.isApplied ∧ ∃ journal s',
        (c.journal.revert (s.signal .hold) = ((.ok (), journal), s') ∧
          c.undo s = ⟨.ok (), { c with journal, state := .undone }, s'.signal .release⟩) ∨
        ∃ e, c.journal.revert (s.signal .hold) = ((.error e, journal), s') ∧
          c.undo s = ⟨.error e, { c with journal }, s'.signal .release⟩ := by
  cases happlied : c.state.isApplied with
  | false => exact .inl ⟨rfl, undo_idle happlied⟩
  | true =>
    rcases hrevert : c.journal.revert (s.signal .hold) with ⟨⟨e | u, journal⟩, s'⟩
    · exact .inr ⟨rfl, journal, s', .inr ⟨e, rfl, undo_of_error happlied hrevert⟩⟩
    · exact .inr ⟨rfl, journal, s', .inl ⟨rfl, undo_of_ok happlied hrevert⟩⟩

/-- Undoing first takes back what is newer, and then goes on as it would have from where that leads
to. -/
theorem undo_append {c' : Command} {s' : Session} {newer : Journal} (happlied : c.state.isApplied)
    (hstate : c'.state = c.state) (hjournal : c'.journal = newer ++ c.journal)
    (hback : newer.TakesBack s'.store s.store) :
    (c'.undo s').outcome = (c.undo s).outcome ∧
      (c'.undo s').command = { c' with
        journal := (c.undo s).command.journal, state := (c.undo s).command.state } ∧
      (c'.undo s').session.layer = { s'.layer with store := (c.undo s).session.store } := by
  have happlied' : c'.state.isApplied := hstate ▸ happlied
  have hnewer : newer.TakesBack (s'.signal .hold).store s.store := hback
  obtain ⟨mid, hrevert', hmid⟩ := hnewer.revert_append c.journal
  have hstore : (s.signal .hold).store = mid.store := (Session.store_eq hmid).symm
  obtain ⟨hanswer, hlayer⟩ := Journal.revert_congr c.journal hstore.symm
  rw [← hrevert', ← hjournal] at hanswer hlayer
  rw [hmid] at hlayer
  rcases hrevert : c.journal.revert (s.signal .hold) with ⟨⟨e | u, journal⟩, last⟩ <;>
    rcases hrevert₁ : c'.journal.revert (s'.signal .hold) with ⟨answer, last'⟩ <;>
    rw [hrevert, hrevert₁] at hanswer <;> rw [hrevert, hrevert₁] at hlayer <;>
    obtain rfl := hanswer
  · rw [undo_of_error happlied hrevert, undo_of_error happlied' hrevert₁]
    exact ⟨rfl, by rw [hstate], hlayer⟩
  · rw [undo_of_ok happlied hrevert, undo_of_ok happlied' hrevert₁]
    exact ⟨rfl, rfl, hlayer⟩

/-- A journal that takes a store back to another leads undoing there. -/
theorem undo_of_takesBack (happlied : c.state.isApplied)
    (hback : c.journal.TakesBack s.store before) :
    ∃ s', c.undo s = ⟨.ok (), { c with journal := [], state := .undone }, s'⟩ ∧
      s'.layer = { s.layer with store := before } := by
  have hheld : c.journal.TakesBack (s.signal .hold).store before := hback
  obtain ⟨houtcome, hlayer⟩ := hheld.revert
  rcases hrevert : c.journal.revert (s.signal .hold) with ⟨answer, s'⟩
  rw [hrevert] at houtcome hlayer
  obtain rfl : answer = (.ok (), []) := houtcome
  exact ⟨_, undo_of_ok happlied hrevert, hlayer⟩

/-- Undoing an applied command takes the store it made back to the store it was executed on. -/
theorem Applied.undo (h : c.Applied before after) (hstore : s.store = after) :
    (c.undo s).Meets
      (fun c' s' => c'.Undone before after ∧ s'.layer = { s.layer with store := before })
      fun _ _ => False := by
  obtain ⟨value, op, hvalue, hwrites, hop⟩ := h.writes
  have hback : c.journal.TakesBack s.store before := hstore ▸ hwrites.takesBack h.typed
  obtain ⟨s', hundo, hlayer⟩ := undo_of_takesBack h.state hback
  rw [hundo]
  exact .of_ok rfl
    ⟨⟨rfl, ⟨value, op, c.journal, hvalue, hwrites, hop⟩, rfl, h.typed⟩, hlayer⟩

/-- Redoing an undone command makes the same store again. Only a layer that refuses something can
keep it from that. -/
theorem Undone.redo (h : c.Undone before after) (hstore : s.store = before) :
    (c.redo s).Meets
      (fun c' s' => c'.Applied before after ∧ s'.store = after ∧
        (s.layer.refusals = {} → s'.layer.refusals = {}))
      fun _ _ => s.layer.refusals ≠ {} := by
  obtain ⟨value, op, journal, hvalue, hwrites, hop⟩ := h.writes
  have hfree : s.layer.refusals = {} →
      (c.apply value s).outcome = .ok () ∧ (c.apply value s).session.layer = { store := after } :=
    fun hrefusals => apply_of_writes hwrites (by rw [← hstore, ← hrefusals]; rfl)
  cases happly : (c.apply value s).outcome with
  | error e =>
    rw [redo_of_error h.state hvalue happly]
    exact .of_error happly fun hrefusals => nomatch happly.symm.trans (hfree hrefusals).1
  | ok u =>
    obtain ⟨op', journal', hwrites', hcommand⟩ := apply_of_ok happly
    rw [hstore] at hwrites'
    obtain ⟨hafter, rfl, rfl⟩ := hwrites.unique hwrites'
    rw [redo_of_ok h.state hvalue happly, hcommand]
    refine .of_ok happly ⟨⟨rfl, ⟨value, op, hvalue, ?_, rfl⟩, h.typed⟩, hafter.symm, ?_⟩
    · rw [h.journal, List.append_nil, ← hop]
      exact hwrites
    · intro hrefusals
      dsimp only
      rw [(hfree hrefusals).2]

/-- A command that cannot be redone stays what it was, and so does the store. -/
theorem redo_remains (c : Command) (s : Session) :
    (c.redo s).Meets (fun _ _ => True) (c.Remains s) := by
  by_cases hundone : ∃ value, c.state = .undone ∧ c.committedValue = some value
  · obtain ⟨value, hstate, hvalue⟩ := hundone
    cases happly : (c.apply value s).outcome with
    | error e =>
      rw [redo_of_error hstate hvalue happly]
      exact apply_remains c value s
    | ok u =>
      rw [redo_of_ok hstate hvalue happly]
      exact .of_ok happly trivial
  · rw [redo_idle fun value h => hundone ⟨value, h⟩]
    exact .of_ok rfl trivial

end Command

end TransformStack
