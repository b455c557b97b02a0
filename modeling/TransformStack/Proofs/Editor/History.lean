import TransformStack.Proofs.Command.Origin
import TransformStack.Proofs.Editor.Timeline

/-!
# The history of an editor is a timeline

What links an editor to its timeline is that each command of the history knows the two snapshots
that it lies between: it stands applied if it can be undone, and undone if it can be redone. Every
call keeps the link, so an editor follows its timeline through any calls of the host.
-/

namespace TransformStack

namespace Editor

/-! ## Chains of commands -/

/-- Commands of a table lead from a store through others, each by a step of some kind. -/
inductive Chain (commands : Array AnyCommand) (step : AnyCommand → Store → Store → Prop) :
    List CommandId → Store → List Store → Prop where
  | nil (s : Store) : Chain commands step [] s []
  | cons {id : CommandId} {ids : List CommandId} {command : AnyCommand} {s s' : Store}
      {stores : List Store} (hcommand : commands[id]? = some command) (hstep : step command s s')
      (hchain : Chain commands step ids s' stores) :
      Chain commands step (id :: ids) s (s' :: stores)

namespace Chain

variable {commands commands' : Array AnyCommand} {step : AnyCommand → Store → Store → Prop}
  {ids : List CommandId} {s : Store} {stores : List Store}

/-- Each command of a chain leads to a store. -/
theorem length_eq (h : Chain commands step ids s stores) : ids.length = stores.length := by
  induction h with
  | nil s => rfl
  | cons hcommand hstep hchain ih => rw [List.length_cons, List.length_cons, ih]

/-- The beginning of a chain is a chain. -/
theorem take (h : Chain commands step ids s stores) (n : Nat) :
    Chain commands step (ids.take n) s (stores.take n) := by
  induction h generalizing n with
  | nil s =>
    rw [List.take_nil, List.take_nil]
    exact .nil s
  | cons hcommand hstep hchain ih =>
    cases n with
    | zero => exact .nil _
    | succ n => exact .cons hcommand hstep (ih n)

/-- A chain looks at its own commands only. -/
theorem congr (h : Chain commands step ids s stores)
    (hcommands : ∀ id ∈ ids, commands'[id]? = commands[id]?) :
    Chain commands' step ids s stores := by
  induction h with
  | nil s => exact .nil s
  | cons hcommand hstep hchain ih =>
    rw [List.forall_mem_cons] at hcommands
    exact .cons (hcommands.1.trans hcommand) hstep (ih hcommands.2)

/-- A call on a command that is not in the chain leaves the chain. -/
theorem after {ed : Editor} {id : CommandId} {command : AnyCommand} {call : Call AnyCommand}
    (h : Chain ed.commands step ids s stores) (hcommand : ed.commands[id]? = some command)
    (hfresh : id ∉ ids) : Chain (ed.after id call).commands step ids s stores := by
  refine h.congr fun id' hid' => ?_
  rw [commands_after call hcommand, if_neg (ne_of_mem_of_not_mem hid' hfresh)]

/-- A call on such a command puts the command before the chain if it makes the step there. -/
theorem cons_after {ed : Editor} {id : CommandId} {command : AnyCommand} {call : Call AnyCommand}
    {first : Store} (h : Chain ed.commands step ids s stores)
    (hcommand : ed.commands[id]? = some command) (hfresh : id ∉ ids)
    (hstep : step call.command first s) :
    Chain (ed.after id call).commands step (id :: ids) first (s :: stores) := by
  refine .cons ?_ hstep (h.after hcommand hfresh)
  rw [commands_after call hcommand, if_pos rfl]

/-- The commands of a chain are in the table. -/
theorem lt_size (h : Chain commands step ids s stores) : ∀ id ∈ ids, id < commands.size := by
  induction h with
  | nil s => simp
  | cons hcommand hstep hchain ih =>
    exact List.forall_mem_cons.2 ⟨(Array.getElem?_eq_some_iff.1 hcommand).1, ih⟩

end Chain

/-! ## The link between an editor and a timeline -/

/-- The commands that can be undone lead back through the snapshots before the cursor, and those
that can be redone lead on through the snapshots after it. Whether the store is open for writing at
the moment does not matter to the link. -/
structure Linked (ed : Editor) (t : Timeline) : Prop where
  limit : ed.history.limit = t.limit
  now : ed.store.setReadOnly false = t.now
  typed : t.now.WellTyped
  past : Chain ed.commands (fun command after before => command.Applied before after)
    ed.history.undo t.now t.before
  future : Chain ed.commands (fun command before after => command.Undone before after)
    ed.history.redo t.now t.after
  bound : ed.history.undo.length + ed.history.redo.length ≤ t.limit
  nodup : (ed.history.undo ++ ed.history.redo).Nodup

namespace Linked

variable {ed : Editor} {t : Timeline}

/-- An editor with an empty history shows a timeline of one snapshot. -/
theorem start {limit : Nat} (hhistory : ed.history = { limit }) (htyped : ed.store.WellTyped) :
    ed.Linked { limit, now := ed.store.setReadOnly false } where
  limit := by rw [hhistory]
  now := rfl
  typed := ⟨htyped.values, htyped.orders⟩
  past := by rw [hhistory]; exact .nil _
  future := by rw [hhistory]; exact .nil _
  bound := by rw [hhistory]; exact Nat.zero_le _
  nodup := by rw [hhistory]; exact List.nodup_nil

/-- A linked editor that may write shows the snapshot at the cursor. -/
theorem store_eq (h : ed.Linked t) (writable : ed.store.readOnly = false) : ed.store = t.now := by
  rw [← h.now, Store.setReadOnly, ← writable]

/-- The store of a linked editor is well typed. -/
theorem typed_store (h : ed.Linked t) : ed.store.WellTyped := by
  have htyped := h.typed
  rw [← h.now] at htyped
  exact ⟨htyped.values, htyped.orders⟩

/-- A linked editor that may write shows its timeline. -/
theorem shows (h : ed.Linked t) (writable : ed.store.readOnly = false) : ed.Shows t :=
  ⟨h.store_eq writable, h.past.length_eq, h.future.length_eq, h.bound⟩

/-- The link looks at the history, the commands in it, and the store, but for its being open. -/
theorem congr {ed' : Editor} (h : ed.Linked t) (hhistory : ed'.history = ed.history)
    (hcommands : ∀ id < ed.commands.size, ed'.commands[id]? = ed.commands[id]?)
    (hstore : ed'.store.setReadOnly false = ed.store.setReadOnly false) : ed'.Linked t where
  limit := by rw [hhistory, h.limit]
  now := by rw [hstore, h.now]
  typed := h.typed
  past := by
    rw [hhistory]
    exact h.past.congr fun id hid => hcommands id (h.past.lt_size id hid)
  future := by
    rw [hhistory]
    exact h.future.congr fun id hid => hcommands id (h.future.lt_size id hid)
  bound := by rw [hhistory]; exact h.bound
  nodup := by rw [hhistory]; exact h.nodup

/-- A command that goes to the front of what can be undone puts the store it made after the cursor;
as many commands are forgotten as snapshots are. -/
theorem pushed (h : ed.Linked t) {ed' : Editor} {id : CommandId} {redo : List CommandId}
    {s : Store} {later : List Store} (hhistory : ed'.history = { ed.history with redo }.pushUndo id)
    (hstore : ed'.store = s) (writable : s.readOnly = false) (htyped : s.WellTyped)
    (hpast : Chain ed'.commands (fun command after before => command.Applied before after)
      (id :: ed.history.undo) s (t.now :: t.before))
    (hfuture : Chain ed'.commands (fun command before after => command.Undone before after)
      redo s later)
    (hbound : redo ≠ [] → ed.history.undo.length + redo.length < t.limit)
    (hnodup : (id :: (ed.history.undo ++ redo)).Nodup) :
    ed'.Linked { t with before := (t.now :: t.before).take t.limit, now := s, after := later } := by
  have hundo : ed'.history.undo = (id :: ed.history.undo).take t.limit := by
    rw [hhistory, History.pushUndo, h.limit]
  have hredo : ed'.history.redo = redo := by rw [hhistory, History.pushUndo]
  refine ⟨?_, ?_, htyped, ?_, ?_, ?_, ?_⟩
  · rw [hhistory]
    exact h.limit
  · rw [hstore, Store.setReadOnly_of_eq writable]
  · rw [hundo]
    exact hpast.take t.limit
  · rw [hredo]
    exact hfuture
  · rw [hundo, hredo, List.length_take, List.length_cons]
    show min t.limit (ed.history.undo.length + 1) + redo.length ≤ t.limit
    by_cases hnil : redo = []
    · rw [hnil, List.length_nil]
      omega
    · have hroom := hbound hnil
      omega
  · rw [hundo, hredo]
    exact hnodup.sublist ((List.take_sublist _ _).append_right _)

/-! ## Executing -/

/-- The commands in the history are not touched when another one is submitted. -/
theorem commands_submit_of_lt {command : AnyCommand} {id : CommandId}
    (h : id < ed.commands.size) : (ed.submit command).2.commands[id]? = ed.commands[id]? := by
  rw [commands_submit, if_neg (Nat.ne_of_lt h)]

/-- A command that was ready and is executed appends the store it makes. -/
theorem submit_ok (h : ed.Linked t) {command : AnyCommand} (hready : command.Ready)
    (hok : (ed.submit command).1 = .ok ()) :
    (ed.submit command).2.Linked (t.append (ed.submit command).2.store) ∧
      (ed.submit command).2.store.readOnly = false := by
  have hexecute := hready.execute (s := ed.session) h.typed_store
  have houtcome : (command.execute ed.session).outcome = .ok () := by
    rw [← outcome_submit, hok]
  have happlied : (command.execute ed.session).command.Applied ed.store
      (command.execute ed.session).session.store := hexecute.ok houtcome
  have hstore : ed.store = t.now := h.store_eq happlied.writable.1
  have hhistory : (ed.submit command).2.history =
      { ed.history with redo := [] }.pushUndo ed.commands.size := by
    rw [history_submit, houtcome]
    rfl
  have hpast : Chain (ed.submit command).2.commands (fun command after before =>
      command.Applied before after) (ed.commands.size :: ed.history.undo)
      (ed.submit command).2.store (t.now :: t.before) := by
    have hfirst : (ed.submit command).2.commands[ed.commands.size]? =
        some (command.execute ed.session).command := by
      rw [commands_submit, if_pos rfl]
    refine .cons hfirst ?_
      (h.past.congr fun id hid => commands_submit_of_lt (h.past.lt_size id hid))
    rw [store_submit, ← hstore]
    exact happlied
  -- The command comes after all commands of the table, so the history does not have it yet.
  have hnew : ed.commands.size ∉ ed.history.undo := fun hmem =>
    Nat.lt_irrefl _ (h.past.lt_size _ hmem)
  have hnodup : (ed.commands.size :: ed.history.undo).Nodup :=
    List.nodup_cons.2 ⟨hnew, h.nodup.sublist (List.sublist_append_left _ _)⟩
  have hwritable : (ed.submit command).2.store.readOnly = false := by
    rw [store_submit]
    exact happlied.writable.2
  have htyped : (ed.submit command).2.store.WellTyped := by
    rw [store_submit]
    exact happlied.typed.2
  refine ⟨h.pushed hhistory rfl hwritable htyped hpast (.nil _) (fun hnil => absurd rfl hnil) ?_,
    hwritable⟩
  rw [List.append_nil]
  exact hnodup

/-- A command that was ready and cannot be executed leaves the link, and the store. -/
theorem submit_error (h : ed.Linked t) {command : AnyCommand} (hready : command.Ready)
    {e : EditError} (herror : (ed.submit command).1 = .error e) :
    (ed.submit command).2.Linked t ∧ (ed.submit command).2.store = ed.store := by
  have hexecute := hready.execute (s := ed.session) h.typed_store
  have houtcome : (command.execute ed.session).outcome = .error e := by
    rw [← outcome_submit, herror]
  have hstore : (ed.submit command).2.store = ed.store := by
    rw [store_submit]
    exact hexecute.error e houtcome
  have hhistory : (ed.submit command).2.history = ed.history := by
    rw [history_submit, houtcome]
  refine ⟨h.congr hhistory (fun id hid => commands_submit_of_lt hid) ?_, hstore⟩
  rw [hstore]

/-! ## Undoing and redoing -/

/-- Undoing succeeds, and moves the cursor back. -/
theorem undo (h : ed.Linked t) (writable : ed.store.readOnly = false) :
    ed.undo.1 = .ok (t.answer .undo) ∧ ed.undo.2.Linked t.back ∧
      ed.undo.2.store.readOnly = false := by
  obtain ⟨limit, before, now, after⟩ := t
  have hstore := h.store_eq writable
  have ⟨hlimit, hnow, htyped, hpast, hfuture, hbound, hnodup⟩ := h
  dsimp only at hstore hlimit hnow htyped hpast hfuture hbound
  generalize hundo : ed.history.undo = ids at hpast hbound hnodup
  -- The newest command of the past stands applied on the store of the cursor.
  cases hpast with
  | nil =>
    rw [undo_of_nil hundo]
    exact ⟨rfl, h, writable⟩
  | @cons id ids command _ s stores hcommand happlied hchain =>
    have hdone := happlied.undo (s := ed.session) hstore
    obtain ⟨hundone, hlayer⟩ := hdone.ok hdone.succeeds
    have hleft : (ed.after id (command.undo ed.session)).store = s := by
      rw [store_after, Session.store, hlayer]
    rw [undo_of_ok hundo hcommand hdone.succeeds]
    have hmiddle : (ids ++ id :: ed.history.redo).Nodup := List.nodup_middle.2 hnodup
    have hfresh : id ∉ ids ++ ed.history.redo := (List.nodup_cons.1 hnodup).1
    rw [List.mem_append, not_or] at hfresh
    refine ⟨rfl, ⟨hlimit, ?_, happlied.typed.1, ?_, ?_, ?_, hmiddle⟩, ?_⟩
    · have hopen : (ed.after id (command.undo ed.session)).store.setReadOnly false = s := by
        rw [hleft, Store.setReadOnly_of_eq happlied.writable.1]
      exact hopen
    · exact hchain.after hcommand hfresh.1
    · exact hfuture.cons_after hcommand hfresh.2 hundone
    · show ids.length + (ed.history.redo.length + 1) ≤ limit
      rw [List.length_cons] at hbound
      omega
    · exact (congrArg Store.readOnly hleft).trans happlied.writable.1

/-- Redoing moves the cursor forward where it succeeds. Only a layer that refuses something can keep
it from that. -/
theorem redo (h : ed.Linked t) (writable : ed.store.readOnly = false) :
    (∀ answer, ed.redo.1 = .ok answer → answer = t.answer .redo ∧ ed.redo.2.Linked t.forward ∧
      ed.redo.2.store.readOnly = false) ∧
    (∀ e, ed.redo.1 = .error e → ed.layer.refusals ≠ {}) := by
  obtain ⟨limit, before, now, after⟩ := t
  have hstore := h.store_eq writable
  have ⟨hlimit, hnow, htyped, hpast, hfuture, hbound, hnodup⟩ := h
  dsimp only at hstore hlimit hnow htyped hpast hfuture hbound
  generalize hredo : ed.history.redo = ids at hfuture hbound hnodup
  cases hfuture with
  | nil =>
    rw [redo_of_nil hredo]
    refine ⟨?_, fun _ herror => (nomatch herror)⟩
    rintro _ ⟨⟩
    exact ⟨rfl, h, writable⟩
  | @cons id ids command _ s stores hcommand hundone hchain =>
    have hdone := hundone.redo (s := ed.session) hstore
    cases houtcome : (command.redo ed.session).outcome with
    | error e =>
      rw [redo_of_error hredo hcommand houtcome]
      exact ⟨fun _ hok => (nomatch hok), fun _ _ => hdone.error e houtcome⟩
    | ok u =>
      obtain ⟨happlied, hleft, -⟩ := hdone.ok houtcome
      rw [redo_of_ok hredo hcommand houtcome]
      refine ⟨?_, fun _ herror => (nomatch herror)⟩
      rintro _ ⟨⟩
      have hmiddle : (id :: (ed.history.undo ++ ids)).Nodup := List.nodup_middle.1 hnodup
      have hfresh : id ∉ ed.history.undo ++ ids := (List.nodup_cons.1 hmiddle).1
      rw [List.mem_append, not_or] at hfresh
      -- There is room before the cursor for what comes from behind it, so nothing is forgotten.
      have hroom : ids ≠ [] → ed.history.undo.length + ids.length < limit := by
        intro _
        rw [List.length_cons] at hbound
        omega
      have hlinked : Linked { ed.after id (command.redo ed.session) with
          history := { ed.history with redo := ids }.pushUndo id } _ :=
        h.pushed rfl hleft happlied.writable.2 happlied.typed.2
          (hpast.cons_after hcommand hfresh.1 happlied) (hchain.after hcommand hfresh.2) hroom
          hmiddle
      exact ⟨rfl, hlinked, (congrArg Store.readOnly hleft).trans happlied.writable.2⟩

end Linked

/-! ## Following a timeline -/

/-- An editor that starts with an empty history follows a timeline of whole-store snapshots,
whatever commands of its host it executes, undoes and redoes. -/
theorem follows_timeline {ed : Editor} {limit : Nat} (hhistory : ed.history = { limit })
    (hwritable : ed.store.readOnly = false) (htyped : ed.store.WellTyped) (calls : List HostCall)
    (hfresh : ∀ command, .execute command ∈ calls → command.Fresh) :
    ed.Follows { limit, now := ed.store } calls := by
  have hlinked := Linked.start hhistory htyped
  rw [Store.setReadOnly_of_eq hwritable] at hlinked
  clear hhistory htyped
  generalize hstart : ({ limit, now := ed.store } : Timeline) = t at hlinked ⊢
  clear hstart
  -- The link is kept by every call that succeeds, and so is that the store is open for writing.
  induction calls generalizing ed t with
  | nil => exact hlinked.shows hwritable
  | cons call calls ih =>
    have hrest : ∀ command, .execute command ∈ calls → command.Fresh :=
      fun command hmem => hfresh command (List.mem_cons_of_mem _ hmem)
    refine ⟨hlinked.shows hwritable, ?_, fun answer ed' hcall => ?_⟩
    · rintro (rfl | ⟨rfl, hfree⟩)
      · exact ⟨_, (hlinked.undo hwritable).1⟩
      · cases hredo : ed.redo.1 with
        | ok answer => exact ⟨answer, hredo⟩
        | error e => exact absurd hfree ((hlinked.redo hwritable).2 e hredo)
    cases call with
    | execute command =>
      have hready := (hfresh command List.mem_cons_self).ready
      rw [perform_execute, Prod.mk.injEq] at hcall
      obtain ⟨hanswer, rfl⟩ := hcall
      cases houtcome : (ed.submit command).1 with
      | error e =>
        rw [houtcome] at hanswer
        cases hanswer
      | ok u =>
        rw [houtcome] at hanswer
        obtain ⟨happend, hopen⟩ := hlinked.submit_ok hready houtcome
        exact ⟨(Except.ok.inj hanswer).symm, ih hopen hrest _ happend⟩
    | undo =>
      obtain ⟨hanswer, hback, hopen⟩ := hlinked.undo hwritable
      change ed.undo = (.ok answer, ed') at hcall
      rw [hcall] at hanswer hback hopen
      exact ⟨Except.ok.inj hanswer, ih hopen hrest _ hback⟩
    | redo =>
      change ed.redo = (.ok answer, ed') at hcall
      have hredo := (hlinked.redo hwritable).1 answer
      rw [hcall] at hredo
      obtain ⟨hanswer, hforward, hopen⟩ := hredo rfl
      exact ⟨hanswer, ih hopen hrest _ hforward⟩

/-- On a bare store a command is executed, undone and redone along a timeline. -/
theorem follows_timeline_of_bare :
    let ed := start { store := .bare } 2 .default
    let calls := [.execute (.single AnyCommand.translation), .undo, .redo]
    (ed.perform (.execute (.single AnyCommand.translation))).1 = .ok .applied ∧
      ed.Follows { limit := 2, now := .bare } calls := by
  intro ed calls
  have htyped : ed.store.WellTyped := Store.wellTyped_bare
  have hfresh : ∀ command, .execute command ∈ calls → command.Fresh := by
    intro command h
    have hcommand : command = .single AnyCommand.translation := by simpa [calls] using h
    rw [hcommand]
    exact AnyCommand.fresh_translation
  exact ⟨by decide +kernel, follows_timeline rfl rfl htyped calls hfresh⟩

end Editor

end TransformStack
