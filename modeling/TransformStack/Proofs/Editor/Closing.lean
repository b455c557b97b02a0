import TransformStack.Proofs.Command.Closing
import TransformStack.Proofs.Editor.Announcing

/-!
# Layers that are closed to writing

Whatever is done with a layer while its store is closed to writing, the attributes and the orders of
all entities stay what they are: no call of the store, no transaction, no journal, no command and no
history gets through. An undo or redo that has something to write fails, and leaves the history for
another attempt, which comes to what it would have come to without the first one.
-/

namespace TransformStack

/-! ## Operations -/

/-- No call on a matrix command writes to a closed store. -/
theorem MatrixCommand.stalling_call (call : MatrixCall) :
    Call.Stalling fun (m : MatrixCommand) s => m.call s call := by
  cases call with
  | set matrix => exact stalling_set matrix
  | execute => exact stalling_execute
  | undo => exact stalling_undo
  | redo => exact stalling_redo

/-- What can be done with a layer. Transactions come with any journal, commands in any state, and
editors with any commands and any history. -/
inductive Operation where
  | store (call : StoreCall)
  /-- Announce refusals, or withdraw them. -/
  | refuse (refusals : Refusals)
  | addOp (id : EntityId) (op : Op)
  | setOrder (id : EntityId) (order : OpOrder)
  /-- Make a write of a transaction. -/
  | write (journal : Journal) (write : Write)
  /-- Roll a transaction back. -/
  | rollback (journal : Journal)
  /-- Revert the journals of committed transactions. -/
  | revert (journal : Journal)
  | command (c : Command) (call : CommandCall)
  | matrix (m : MatrixCommand) (call : MatrixCall)
  | history (ed : Editor) (call : EditCall)

namespace Layer

/-- What an operation makes of a layer, whatever it answers. -/
def operate (layer : Layer) : Operation → Layer
  | .store call => { layer with store := layer.store.perform call }
  | .refuse refusals => { layer with refusals }
  | .addOp id op => (layer.addOp id op).2
  | .setOrder id order =>
    match layer.setOrder id order with
    | .ok (some after) => after
    | .ok none | .error _ => layer
  | .write journal write => (({ layer, journal } : Transaction).make write).2.layer
  | .rollback journal => ({ layer, journal } : Transaction).rollback.layer
  | .revert journal => (journal.revert { layer }).2.layer
  | .command c call => (c.call { layer } call).session.layer
  | .matrix m call => (m.call { layer } call).session.layer
  | .history ed call => ({ ed with layer }.turn call).layer

/-- Operate one after the other. -/
def operateAll (layer : Layer) (ops : List Operation) : Layer := ops.foldl operate layer

end Layer

/-! ## Calls on the history -/

namespace Editor

variable {ed ed' : Editor} {id : CommandId} {command : AnyCommand}

/-- No call on the history writes to a closed store. -/
theorem stalls_of_callee? (hclosed : ed.store.readOnly = true) {call : EditCall}
    {done : Call AnyCommand} (h : ed.callee? call = some (id, command, done)) :
    ed.session.Stalls done.session := by
  obtain ⟨-, rfl | rfl | rfl⟩ := callee?_cases h
  · exact AnyCommand.stalling_execute _ _ hclosed
  · exact AnyCommand.stalling_undo _ _ hclosed
  · exact AnyCommand.stalling_redo _ _ hclosed

/-- A call on the history leaves a closed store. -/
theorem store_turn_of_closed (hclosed : ed.store.readOnly = true) (call : EditCall) :
    (ed.turn call).store = ed.store := by
  obtain ⟨history, hturn⟩ := ed.exists_turn_eq call
  rw [hturn]
  cases hcallee : ed.callee? call with
  | none => rfl
  | some callee =>
    obtain ⟨id, command, done⟩ := callee
    exact (stalls_of_callee? hclosed hcallee).store

/-! ## Attempts that are refused -/

/-- Two editors edit the same layer with the same commands and the same history. -/
structure Agrees (ed ed' : Editor) : Prop where
  layer : ed.layer = ed'.layer
  commands : ed.commands = ed'.commands
  history : ed.history = ed'.history

/-- On some layer the call would write to some entity. -/
def HasToWrite (ed : Editor) (call : EditCall) : Prop :=
  ∃ layer id command done, { ed with layer }.callee? call = some (id, command, done) ∧
    ∃ entity, .changed entity ∈ done.session.signals

/-- Undoing has to write where the command to be undone would announce a change. -/
theorem hasToWrite_of_undo {layer : Layer} {older : List CommandId} {entity : EntityId}
    (hundo : ed.history.undo = id :: older) (hcommand : ed.commands[id]? = some command)
    (hchanged : .changed entity ∈ (command.undo { layer }).session.signals) :
    ed.HasToWrite .undo := by
  refine ⟨layer, id, command, command.undo { layer }, ?_, entity, hchanged⟩
  simp only [callee?, hundo, hcommand, List.head?_cons, Option.bind_eq_bind, Option.bind_some]
  rfl

/-- An attempt to undo or redo fails and leaves the history and the store. Attempted again on any
layer, it comes to what it would have come to on that layer at first. -/
structure Refuses (ed : Editor) (attempt : Editor → Except EditError HistoryStep × Editor) :
    Prop where
  fails : ∃ e, (attempt ed).1 = .error e
  history : (attempt ed).2.history = ed.history
  store : (attempt ed).2.store = ed.store
  layer : ed.layer.refusals = {} → (attempt ed).2.layer = ed.layer
  again : ∀ layer, (attempt { (attempt ed).2 with layer }).1 = (attempt { ed with layer }).1 ∧
    (attempt { (attempt ed).2 with layer }).2.Agrees (attempt { ed with layer }).2

/-- An attempt that makes a call on the command at one end of the history, which moves on if the
call succeeds. -/
structure Advances (attempt : Editor → Except EditError HistoryStep × Editor)
    (act : AnyCommand → Session → Call AnyCommand) (id : CommandId) (history next : History) :
    Prop where
  ok : ∀ {ed : Editor} {command : AnyCommand}, ed.history = history →
    ed.commands[id]? = some command → (act command ed.session).outcome = .ok () →
    attempt ed = (.ok .applied, { ed.after id (act command ed.session) with history := next })
  error : ∀ {ed : Editor} {command : AnyCommand} {e : EditError}, ed.history = history →
    ed.commands[id]? = some command → (act command ed.session).outcome = .error e →
    attempt ed = (.error e, ed.after id (act command ed.session))

/-- Undoing makes a call on the last command that was done. -/
theorem advances_undo {history : History} {older : List CommandId}
    (hundo : history.undo = id :: older) :
    Advances undo AnyCommand.undo id history
      { history with undo := older, redo := id :: history.redo } where
  ok := by
    rintro ed command rfl hcommand hok
    exact undo_of_ok hundo hcommand hok
  error := by
    rintro ed command e rfl hcommand herror
    exact undo_of_error hundo hcommand herror

/-- Redoing makes a call on the first command that was undone. -/
theorem advances_redo {history : History} {others : List CommandId}
    (hredo : history.redo = id :: others) :
    Advances redo AnyCommand.redo id history ({ history with redo := others }.pushUndo id) where
  ok := by
    rintro ed command rfl hcommand hok
    exact redo_of_ok hredo hcommand hok
  error := by
    rintro ed command e rfl hcommand herror
    exact redo_of_error hredo hcommand herror

variable {attempt : Editor → Except EditError HistoryStep × Editor}
  {act : AnyCommand → Session → Call AnyCommand} {next : History}

/-- A call on a command that was left by a refused call and is alike to the call at first. -/
theorem Advances.agrees (h : Advances attempt act id ed.history next) {left : AnyCommand}
    (hcommand : ed.commands[id]? = some command) (hhistory : ed'.history = ed.history)
    (hcommands : ed'.commands = ed.commands.setIfInBounds id left) (hlayer : ed'.layer = ed.layer)
    (halike : (act left ed.session).Alike (act command ed.session)) :
    (attempt ed').1 = (attempt ed).1 ∧ (attempt ed').2.Agrees (attempt ed).2 := by
  have hsession : ed'.session = ed.session := by rw [session, session, hlayer]
  have hleft : ed'.commands[id]? = some left := by
    have hid : id < ed.commands.size := (Array.getElem?_eq_some_iff.1 hcommand).1
    rw [hcommands, Array.getElem?_setIfInBounds_self_of_lt hid]
  have hafter : (ed'.after id (act left ed.session)).commands =
      (ed.after id (act command ed.session)).commands := by
    show ed'.commands.setIfInBounds id _ = ed.commands.setIfInBounds id _
    rw [hcommands, halike.command, Array.setIfInBounds_setIfInBounds]
  cases houtcome : (act command ed.session).outcome with
  | ok u =>
    have hok : (act left ed'.session).outcome = .ok () := by
      rw [hsession, halike.outcome, houtcome]
    rw [h.ok rfl hcommand houtcome, h.ok hhistory hleft hok, hsession]
    exact ⟨rfl, halike.layer, hafter, rfl⟩
  | error e =>
    have herror : (act left ed'.session).outcome = .error e := by
      rw [hsession, halike.outcome, houtcome]
    rw [h.error rfl hcommand houtcome, h.error hhistory hleft herror, hsession]
    exact ⟨rfl, halike.layer, hafter, hhistory⟩

/-- Where the call halts although there is something to write, the attempt is refused. -/
theorem Advances.refuses (h : Advances attempt act id ed.history next)
    (hcommand : ed.commands[id]? = some command) (hhalts : Call.Halts act command ed.session)
    (hstalls : ed.session.Stalls (act command ed.session).session) {layer : Layer}
    {entity : EntityId} (hchanged : .changed entity ∈ (act command { layer }).session.signals) :
    ed.Refuses attempt := by
  cases hhalts with
  | idle hidle => exact absurd (hidle.quiet { layer } entity hchanged) List.not_mem_nil
  | @refused e herror hagain =>
    have hattempt := h.error rfl hcommand herror
    constructor
    · exact ⟨e, by rw [hattempt]⟩
    · rw [hattempt]
      rfl
    · rw [hattempt]
      exact hstalls.store
    · intro hfree
      rw [hattempt]
      exact hstalls.layer_eq hfree
    · intro layer
      rw [hattempt]
      have h' : Advances attempt act id { ed with layer }.history next := h
      exact h'.agrees hcommand rfl rfl rfl (hagain _)

/-- On a closed store undoing is refused if there is something to take back. -/
theorem refuses_undo (hclosed : ed.store.readOnly = true) (hwrites : ed.HasToWrite .undo) :
    ed.Refuses undo := by
  obtain ⟨layer, id, command, done, hcallee, entity, hchanged⟩ := hwrites
  obtain ⟨id, hid, h⟩ := Option.bind_eq_some_iff.1 hcallee
  obtain ⟨command, hfound, heq⟩ := Option.bind_eq_some_iff.1 h
  cases heq
  have hcommand : ed.commands[id]? = some command := hfound
  obtain ⟨older, hundo⟩ : ∃ older, ed.history.undo = id :: older := List.head?_eq_some_iff.1 hid
  have hhalts := AnyCommand.halts_undo (s := ed.session) hclosed command
  exact (advances_undo hundo).refuses hcommand hhalts
    (AnyCommand.stalling_undo command ed.session hclosed) hchanged

/-- On a closed store redoing is refused if there is something to write. -/
theorem refuses_redo (hclosed : ed.store.readOnly = true) (hwrites : ed.HasToWrite .redo) :
    ed.Refuses redo := by
  obtain ⟨layer, id, command, done, hcallee, entity, hchanged⟩ := hwrites
  obtain ⟨id, hid, h⟩ := Option.bind_eq_some_iff.1 hcallee
  obtain ⟨command, hfound, heq⟩ := Option.bind_eq_some_iff.1 h
  cases heq
  have hcommand : ed.commands[id]? = some command := hfound
  obtain ⟨others, hredo⟩ : ∃ others, ed.history.redo = id :: others :=
    List.head?_eq_some_iff.1 hid
  have hhalts := AnyCommand.halts_redo (s := ed.session) hclosed command
  exact (advances_redo hredo).refuses hcommand hhalts
    (AnyCommand.stalling_redo command ed.session hclosed) hchanged

/-- An editor of a bare store in which a matrix command was executed. -/
def executedTransform : Editor :=
  ((start { store := .bare } 2 .default).submit (.matrix AnyCommand.transform)).2

/-- The executed command of the example has something to take back. -/
theorem executedTransform_spec :
    executedTransform.history.undo = [0] ∧ ∃ command,
      executedTransform.commands[0]? = some command ∧
        .changed default ∈ (command.undo { layer := executedTransform.layer }).session.signals := by
  refine ⟨by decide +kernel, _, (commands_submit _ _ 0).trans (if_pos rfl), ?_⟩
  decide +kernel

end Editor

/-! ## Runs on a closed layer -/

namespace Layer

variable {layer : Layer} {ops : List Operation}

/-- No operation but opening the store gets through to it. -/
theorem frozen_operate (hclosed : layer.store.readOnly = true) {op : Operation}
    (hop : op ≠ .store (.setReadOnly false)) :
    layer.store.Frozen (layer.operate op).store ∧ (layer.operate op).store.readOnly = true := by
  have hsame {after : Layer} (h : after.store = layer.store) :
      layer.store.Frozen after.store ∧ after.store.readOnly = true := by
    rw [h]
    exact ⟨.refl _, hclosed⟩
  cases op with
  | store call => exact Store.frozen_perform hclosed fun hcall => hop (congrArg _ hcall)
  | refuse refusals => exact hsame rfl
  | addOp id op => exact hsame (store_addOp_of_closed hclosed id op)
  | setOrder id order =>
    refine hsame ?_
    unfold operate
    dsimp only
    split
    · next hset => exact absurd hset (setOrder_ne_of_closed hclosed)
    · rfl
    · rfl
  | write journal write =>
    have htx : ({ layer, journal } : Transaction).store.readOnly = true := hclosed
    exact hsame (Transaction.make_of_closed htx write).2.1.store
  | rollback journal =>
    have htx : ({ layer, journal } : Transaction).store.readOnly = true := hclosed
    exact hsame (Transaction.store_rollback_of_closed htx)
  | revert journal =>
    have hstays := Journal.revert_stalls (s := { layer }) hclosed journal
    exact hsame (congrArg (·.store) hstays)
  | command c call => exact hsame (Command.stalling_call call c { layer } hclosed).store
  | matrix m call => exact hsame (MatrixCommand.stalling_call call m { layer } hclosed).store
  | history ed call =>
    have hed : { ed with layer }.store.readOnly = true := hclosed
    exact hsame (Editor.store_turn_of_closed hed call)

/-- Nor does any run of them. -/
theorem frozen_operateAll (hclosed : layer.store.readOnly = true)
    (hkept : Operation.store (.setReadOnly false) ∉ ops) :
    layer.store.Frozen (layer.operateAll ops).store ∧
      (layer.operateAll ops).store.readOnly = true := by
  induction ops generalizing layer with
  | nil => exact ⟨.refl _, hclosed⟩
  | cons op ops ih =>
    rw [List.mem_cons, not_or] at hkept
    obtain ⟨hfrozen, hstays⟩ := frozen_operate hclosed (Ne.symm hkept.1)
    obtain ⟨hfrozen', hstays'⟩ := ih hstays hkept.2
    exact ⟨hfrozen.trans hfrozen', hstays'⟩

/-- Whatever is done with a closed layer short of opening it, the attributes of all entities, their
types and their values at all times stay, and so do the orders. An undo or redo that has something
to write is refused then, and can be made up for on a layer that is open. -/
theorem frozen_while_closed (hclosed : layer.store.readOnly = true)
    (hkept : Operation.store (.setReadOnly false) ∉ ops) :
    layer.store.Frozen (layer.operateAll ops).store ∧
      (∀ id, layer.store.has id → (layer.operateAll ops).store.order id = layer.store.order id) ∧
      ∀ ed : Editor, ed.layer = layer.operateAll ops →
        (ed.HasToWrite .undo → ed.Refuses Editor.undo) ∧
          (ed.HasToWrite .redo → ed.Refuses Editor.redo) := by
  obtain ⟨hfrozen, hstays⟩ := frozen_operateAll hclosed hkept
  refine ⟨hfrozen, fun id hhas => hfrozen.order hhas, fun ed hlayer => ?_⟩
  have hclosed' : ed.store.readOnly = true := by rw [Editor.store, hlayer, hstays]
  exact ⟨Editor.refuses_undo hclosed', Editor.refuses_redo hclosed'⟩

/-- After the store was closed, its order is neither cleared nor taken back by undoing the command,
and undoing the command once more is refused. -/
theorem frozen_while_closed_transform :
    let closed := Editor.executedTransform.layer.operate (.store (.setReadOnly true))
    let after := closed.operateAll [.store (.clearValue default Op.orderName .default),
      .history Editor.executedTransform .undo]
    let ed : Editor := { Editor.executedTransform with layer := after }
    closed.store.has default = true ∧ after.store.order default = closed.store.order default ∧
      ed.HasToWrite .undo ∧ ed.Refuses Editor.undo := by
  intro closed after ed
  have hclosed : closed.store.readOnly = true := rfl
  have hhas : closed.store.has default = true := by decide +kernel
  have hkept : Operation.store (.setReadOnly false) ∉
      [.store (.clearValue default Op.orderName .default),
        .history Editor.executedTransform .undo] := by simp
  obtain ⟨hundo, command, hcommand, hchanged⟩ := Editor.executedTransform_spec
  have hwrites : ed.HasToWrite .undo := Editor.hasToWrite_of_undo hundo hcommand hchanged
  obtain ⟨-, horder, hrefuses⟩ := frozen_while_closed hclosed hkept
  exact ⟨hhas, horder default hhas, hwrites, (hrefuses ed rfl).1 hwrites⟩

end Layer

end TransformStack
