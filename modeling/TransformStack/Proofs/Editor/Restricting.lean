import TransformStack.Proofs.Command.Restricting
import TransformStack.Proofs.Editor.History

/-!
# The history of one entity

Among the commands of a history, those that edit one entity are a history of that entity: they lead
back and forth through what the store held of it, whatever the others do, and wherever the others
fail. So what executing a command keeps of one entity is kept by all calls, and a call that undoes
or redoes a command of the entity does not fail.
-/

namespace TransformStack.Editor

variable {ed : Editor} {id : EntityId} {cid : CommandId} {command : AnyCommand}
  {P : Store → Prop} {past future : List CommandId}

/-- The store without the attributes of other entities. -/
def part (ed : Editor) (id : EntityId) : Store := ed.store.only (· = id)

/-- The command under a number edits an entity. -/
def edits (ed : Editor) (id : EntityId) (cid : CommandId) : Bool :=
  ed.commands[cid]?.any (·.entity = id)

/-- Commands lead back, and others on, through what the store held of an entity, and a property
holds at each place. -/
structure Spans (ed : Editor) (id : EntityId) (P : Store → Prop)
    (past future : List CommandId) : Prop where
  typed : (ed.part id).WellTyped
  now : P (ed.part id)
  past : ∃ stores, Chain ed.commands (fun c after before => c.Applied before after ∧ P before)
    past (ed.part id) stores
  future : ∃ stores, Chain ed.commands (fun c before after => c.Undone before after ∧ P after)
    future (ed.part id) stores

namespace Spans

/-- The span of an entity depends on what the store holds of it, and on the commands of the span. -/
theorem congr {ed' : Editor} (h : ed.Spans id P past future) (hpart : ed'.part id = ed.part id)
    (hcommands : ∀ cid ∈ past ++ future, ed'.commands[cid]? = ed.commands[cid]?) :
    ed'.Spans id P past future := by
  obtain ⟨htyped, hnow, ⟨before, hpast⟩, after, hfuture⟩ := h
  rw [List.forall_mem_append] at hcommands
  refine ⟨?_, ?_, ⟨before, ?_⟩, after, ?_⟩ <;> rw [hpart]
  · exact htyped
  · exact hnow
  · exact hpast.congr hcommands.1
  · exact hfuture.congr hcommands.2

/-- Old commands can be forgotten. -/
theorem take {ids : List CommandId} {p : CommandId → Bool}
    (h : ed.Spans id P (ids.filter p) future) (n : Nat) :
    ed.Spans id P ((ids.take n).filter p) future := by
  obtain ⟨before, hpast⟩ := h.past
  rw [List.prefix_iff_eq_take.1 ((List.take_prefix n ids).filter p)]
  exact ⟨h.typed, h.now, ⟨_, hpast.take _⟩, h.future⟩

/-! ## Calls on commands of other entities -/

/-- A call on a command of another entity changes nothing of this one. -/
theorem call_other (h : ed.Spans id P past future) (hcommand : ed.commands[cid]? = some command)
    {act : AnyCommand → Session → Call AnyCommand} (hact : AnyCommand.Confined act)
    (howns : command.Owns) (hother : command.entity ≠ id) (hfresh : cid ∉ past ++ future) :
    (ed.after cid (act command ed.session)).Spans id P past future := by
  obtain ⟨⟨trail, hbrackets⟩, -, -⟩ := hact.announces command ed.session howns
  refine h.congr (hbrackets.passes.only_eq (by simpa using hother)) fun cid' hcid' => ?_
  rw [commands_after _ hcommand, if_neg (ne_of_mem_of_not_mem hcid' hfresh)]

/-! ## Calls on commands of the entity -/

section Own

variable (hcommand : ed.commands[cid]? = some command) (howns : command.Owns)
  (hid : command.entity = id) (hfresh : cid ∉ past ++ future)

include hcommand howns hid hfresh

/-- The latest command of the entity can be undone. -/
theorem undo_own (h : ed.Spans id P (cid :: past) future) :
    (command.undo ed.session).outcome = .ok () ∧
      (ed.after cid (command.undo ed.session)).Spans id P past (cid :: future) := by
  obtain ⟨htyped, hnow, ⟨stores, hpast⟩, later, hfuture⟩ := h
  rw [List.mem_append, not_or] at hfresh
  cases hpast with
  | @cons _ _ command' _ before stores hcommand' hstep hchain =>
    obtain rfl : command = command' := Option.some.inj (hcommand.symm.trans hcommand')
    obtain ⟨happlied, hbefore⟩ := hstep
    have hdone := happlied.undo (s := ed.session.only (· = id)) rfl
    rw [AnyCommand.confined_undo.only _ command ed.session howns (by simpa using hid)] at hdone
    obtain ⟨hundone, hlayer⟩ := hdone.ok hdone.succeeds
    have hpart : (ed.after cid (command.undo ed.session)).part id = before :=
      congrArg Layer.store hlayer
    refine ⟨hdone.succeeds, ?_, ?_, ⟨stores, ?_⟩, ed.part id :: later, ?_⟩ <;> rw [hpart]
    · exact happlied.typed.1
    · exact hbefore
    · exact hchain.after hcommand hfresh.1
    · exact hfuture.cons_after hcommand hfresh.2 ⟨hundone, hnow⟩

/-- The command of the entity that was undone last can be redone. -/
theorem redo_own (h : ed.Spans id P past (cid :: future)) (hfree : ed.layer.refusals = {}) :
    (command.redo ed.session).outcome = .ok () ∧
      (ed.after cid (command.redo ed.session)).Spans id P (cid :: past) future := by
  obtain ⟨htyped, hnow, ⟨earlier, hpast⟩, stores, hfuture⟩ := h
  rw [List.mem_append, not_or] at hfresh
  cases hfuture with
  | @cons _ _ command' _ after stores hcommand' hstep hchain =>
    obtain rfl : command = command' := Option.some.inj (hcommand.symm.trans hcommand')
    obtain ⟨hundone, hafter⟩ := hstep
    have hdone := hundone.redo (s := ed.session.only (· = id)) rfl
    rw [AnyCommand.confined_redo.only _ command ed.session howns (by simpa using hid)] at hdone
    have hok : (command.redo ed.session).outcome = .ok () := by
      cases houtcome : (command.redo ed.session).outcome with
      | ok u => rfl
      | error e => exact absurd hfree (hdone.error e houtcome)
    obtain ⟨happlied, hstore, -⟩ := hdone.ok hok
    have hpart : (ed.after cid (command.redo ed.session)).part id = after := hstore
    refine ⟨hok, ?_, ?_, ⟨ed.part id :: earlier, ?_⟩, stores, ?_⟩ <;> rw [hpart]
    · exact happlied.typed.2
    · exact hafter
    · exact hpast.cons_after hcommand hfresh.1 ⟨happlied, hnow⟩
    · exact hchain.after hcommand hfresh.2

/-- A new command of the entity that is executed goes before the others. -/
theorem execute_own (h : ed.Spans id P past future) (hready : command.Ready)
    (hok : (command.execute ed.session).outcome = .ok ())
    (hafter : P ((ed.after cid (command.execute ed.session)).part id)) :
    (ed.after cid (command.execute ed.session)).Spans id P (cid :: past) [] := by
  obtain ⟨htyped, hnow, ⟨earlier, hpast⟩, -⟩ := h
  have hdone := hready.execute (s := ed.session.only (· = id)) htyped
  rw [AnyCommand.confined_execute.only _ command ed.session howns (by simpa using hid)] at hdone
  have happlied : (command.execute ed.session).command.Applied (ed.part id)
      ((ed.after cid (command.execute ed.session)).part id) := hdone.ok hok
  have hpast' : Chain (ed.after cid (command.execute ed.session)).commands _ (cid :: past) _ _ :=
    hpast.cons_after hcommand (fun hmem => hfresh (List.mem_append_left _ hmem)) ⟨happlied, hnow⟩
  exact ⟨happlied.typed.2, hafter, ⟨_, hpast'⟩, _, .nil _⟩

/-- A new command of the entity that fails to be executed changes nothing. -/
theorem execute_own_error (h : ed.Spans id P past future) (hready : command.Ready) {e : EditError}
    (herror : (command.execute ed.session).outcome = .error e) :
    (ed.after cid (command.execute ed.session)).Spans id P past future := by
  have hdone := hready.execute (s := ed.session.only (· = id)) h.typed
  rw [AnyCommand.confined_execute.only _ command ed.session howns (by simpa using hid)] at hdone
  refine h.congr (hdone.error e herror) fun cid' hcid' => ?_
  rw [commands_after _ hcommand, if_neg (ne_of_mem_of_not_mem hcid' hfresh)]

end Own

end Spans

/-! ## Histories -/

/-- The commands of the history that edit an entity lead back and forth through what the store held
of it, where the layer refuses nothing and each command of the history works on its own entity. -/
structure Tracks (ed : Editor) (id : EntityId) (P : Store → Prop) : Prop where
  refusals : ed.layer.refusals = {}
  owns : ∀ cid ∈ ed.history.undo ++ ed.history.redo,
    ∃ command, ed.commands[cid]? = some command ∧ command.Owns
  nodup : (ed.history.undo ++ ed.history.redo).Nodup
  spans : ed.Spans id P
    (ed.history.undo.filter (ed.edits id)) (ed.history.redo.filter (ed.edits id))

/-- A command edits its own entity only. -/
theorem edits_eq (hcommand : ed.commands[cid]? = some command) :
    ed.edits id cid = decide (command.entity = id) := by
  rw [edits, hcommand, Option.any_some]

/-- A command that edits an entity is of that entity. -/
theorem entity_of_edits (hcommand : ed.commands[cid]? = some command) (h : ed.edits id cid) :
    command.entity = id := by
  rw [edits_eq hcommand] at h
  exact of_decide_eq_true h

/-- A call leaves what its command edits. -/
theorem edits_after (hcommand : ed.commands[cid]? = some command) {done : Call AnyCommand}
    (hentity : done.command.entity = command.entity) :
    (ed.after cid done).edits id = ed.edits id := by
  funext cid'
  rw [edits, edits, commands_after _ hcommand]
  split
  · next hsame => rw [hsame, hcommand, Option.any_some, Option.any_some, hentity]
  · rfl

namespace Tracks

/-- An editor with an empty history tracks what the store holds of an entity. -/
theorem start {limit : Nat} (hhistory : ed.history = { limit }) (hfree : ed.layer.refusals = {})
    (htyped : (ed.part id).WellTyped) (hnow : P (ed.part id)) : ed.Tracks id P := by
  refine ⟨hfree, ?_, ?_, htyped, hnow, ⟨[], ?_⟩, [], ?_⟩ <;> rw [hhistory]
  · exact fun _ hcid => nomatch hcid
  · exact List.nodup_nil
  · exact .nil _
  · exact .nil _

/-- After a call on a command, what is left to show are the commands that edit the entity. -/
theorem after (h : ed.Tracks id P) (hcommand : ed.commands[cid]? = some command)
    (howns : command.Owns) {act : AnyCommand → Session → Call AnyCommand}
    (hact : AnyCommand.Confined act) {history : History}
    (hmem : ∀ cid' ∈ history.undo ++ history.redo,
      cid' = cid ∨ cid' ∈ ed.history.undo ++ ed.history.redo)
    (hnodup : (history.undo ++ history.redo).Nodup)
    (hspans : (ed.after cid (act command ed.session)).Spans id P
      (history.undo.filter (ed.edits id)) (history.redo.filter (ed.edits id))) :
    Tracks { ed.after cid (act command ed.session) with history } id P := by
  obtain ⟨⟨trail, hbrackets⟩, hentity, howns'⟩ := hact.announces command ed.session howns
  refine ⟨hbrackets.passes.refusals_eq h.refusals, fun cid' hcid' => ?_, hnodup, ?_⟩
  · have hafter := commands_after (act command ed.session) hcommand cid'
    by_cases hsame : cid' = cid
    · exact ⟨_, hafter.trans (if_pos hsame), howns'⟩
    · rw [if_neg hsame] at hafter
      obtain ⟨other, hother, hothers⟩ := h.owns cid' ((hmem cid' hcid').resolve_left hsame)
      exact ⟨other, hafter.trans hother, hothers⟩
  · have hedits : edits { ed.after cid (act command ed.session) with history } id = ed.edits id :=
      edits_after hcommand hentity
    rw [hedits]
    exact hspans.congr rfl fun _ _ => rfl

/-- The same where the history stays what it was. -/
theorem stays (h : ed.Tracks id P) (hcommand : ed.commands[cid]? = some command)
    (howns : command.Owns) {act : AnyCommand → Session → Call AnyCommand}
    (hact : AnyCommand.Confined act)
    (hspans : (ed.after cid (act command ed.session)).Spans id P
      (ed.history.undo.filter (ed.edits id)) (ed.history.redo.filter (ed.edits id))) :
    (ed.after cid (act command ed.session)).Tracks id P :=
  h.after hcommand howns hact (fun _ => .inr) h.nodup hspans

/-- A command that does not edit the entity is passed over. -/
theorem filter_cons_other (hcommand : ed.commands[cid]? = some command)
    (hother : command.entity ≠ id) (ids : List CommandId) :
    (cid :: ids).filter (ed.edits id) = ids.filter (ed.edits id) :=
  List.filter_cons_of_neg (by rw [edits_eq hcommand, decide_eq_false hother]; simp)

/-- A command on the entity is one of those that edit it. -/
theorem filter_cons_own (hcommand : ed.commands[cid]? = some command)
    (hid : command.entity = id) (ids : List CommandId) :
    (cid :: ids).filter (ed.edits id) = cid :: ids.filter (ed.edits id) :=
  List.filter_cons_of_pos (by rw [edits_eq hcommand, decide_eq_true hid])

/-- A command outside the history is none of those that edit an entity. -/
theorem notMem_filter_append {p : CommandId → Bool} (h : cid ∉ past ++ future) :
    cid ∉ past.filter p ++ future.filter p := by
  rw [← List.filter_append]
  exact fun hmem => h (List.mem_of_mem_filter hmem)

/-- Undoing goes back on the track of the entity, or stays where it is. A command of the entity can
be undone. -/
theorem undo (h : ed.Tracks id P) :
    ed.undo.2.Tracks id P ∧ ∀ cid ∈ ed.history.undo.head?, ed.edits id cid →
      ∃ answer, ed.undo.1 = .ok answer := by
  cases hundo : ed.history.undo with
  | nil =>
    rw [undo_of_nil hundo]
    exact ⟨h, fun _ hcid => nomatch hcid⟩
  | cons cid older =>
    obtain ⟨command, hcommand, howns⟩ := h.owns cid (by rw [hundo]; exact List.mem_cons_self)
    have hspans := h.spans
    have hnodup := h.nodup
    rw [hundo] at hspans hnodup
    have hfresh : cid ∉ older.filter (ed.edits id) ++ ed.history.redo.filter (ed.edits id) :=
      notMem_filter_append (List.nodup_cons.1 hnodup).1
    have hmoves (hleft : (ed.after cid (command.undo ed.session)).Spans id P
        (older.filter (ed.edits id)) ((cid :: ed.history.redo).filter (ed.edits id))) :
        Tracks { ed.after cid (command.undo ed.session) with
          history := { ed.history with undo := older, redo := cid :: ed.history.redo } } id P := by
      refine h.after hcommand howns AnyCommand.confined_undo (fun cid' hcid' => ?_)
        (List.nodup_middle.2 hnodup) hleft
      rw [hundo]
      simpa [or_left_comm] using hcid'
    by_cases hid : command.entity = id
    · rw [filter_cons_own hcommand hid] at hspans hmoves
      obtain ⟨hok, hleft⟩ := hspans.undo_own hcommand howns hid hfresh
      rw [undo_of_ok hundo hcommand hok]
      exact ⟨hmoves hleft, fun _ _ _ => ⟨_, rfl⟩⟩
    · rw [filter_cons_other hcommand hid] at hspans hmoves
      have hleft := hspans.call_other hcommand AnyCommand.confined_undo howns hid hfresh
      refine ⟨?_, ?_⟩
      · cases houtcome : (command.undo ed.session).outcome with
        | ok u =>
          rw [undo_of_ok hundo hcommand houtcome]
          exact hmoves hleft
        | error e =>
          rw [undo_of_error hundo hcommand houtcome]
          refine h.stays hcommand howns AnyCommand.confined_undo ?_
          rw [hundo, filter_cons_other hcommand hid]
          exact hleft
      · rintro _ ⟨⟩ hedits
        exact absurd (entity_of_edits hcommand hedits) hid

/-- Redoing goes on along the track of the entity, or stays where it is. A command of the entity can
be redone. -/
theorem redo (h : ed.Tracks id P) :
    ed.redo.2.Tracks id P ∧ ∀ cid ∈ ed.history.redo.head?, ed.edits id cid →
      ∃ answer, ed.redo.1 = .ok answer := by
  cases hredo : ed.history.redo with
  | nil =>
    rw [redo_of_nil hredo]
    exact ⟨h, fun _ hcid => nomatch hcid⟩
  | cons cid others =>
    obtain ⟨command, hcommand, howns⟩ := h.owns cid (by rw [hredo]; simp)
    have hspans := h.spans
    have hnodup := h.nodup
    rw [hredo] at hspans hnodup
    rw [List.nodup_middle] at hnodup
    have hfresh : cid ∉ ed.history.undo.filter (ed.edits id) ++ others.filter (ed.edits id) :=
      notMem_filter_append (List.nodup_cons.1 hnodup).1
    have hmoves (hleft : (ed.after cid (command.redo ed.session)).Spans id P
        ((cid :: ed.history.undo).filter (ed.edits id)) (others.filter (ed.edits id))) :
        Tracks { ed.after cid (command.redo ed.session) with
          history := { ed.history with redo := others }.pushUndo cid } id P := by
      refine h.after hcommand howns AnyCommand.confined_redo (fun cid' hcid' => .inr ?_) ?_
        (hleft.take _)
      · rw [hredo]
        -- The redone command moves to the past, which may lose its oldest; none is new to the
        -- history.
        rcases List.mem_append.1 hcid' with hpast | hfuture
        · rcases List.mem_cons.1 (List.mem_of_mem_take hpast) with rfl | hold
          · exact List.mem_append_right _ List.mem_cons_self
          · exact List.mem_append_left _ hold
        · exact List.mem_append_right _ (List.mem_cons_of_mem _ hfuture)
      · exact hnodup.sublist ((List.take_sublist _ _).append_right _)
    by_cases hid : command.entity = id
    · rw [filter_cons_own hcommand hid] at hspans hmoves
      obtain ⟨hok, hleft⟩ := hspans.redo_own hcommand howns hid hfresh h.refusals
      rw [redo_of_ok hredo hcommand hok]
      exact ⟨hmoves hleft, fun _ _ _ => ⟨_, rfl⟩⟩
    · rw [filter_cons_other hcommand hid] at hspans hmoves
      -- A command of another entity may fail, but either way it leaves the track alone.
      have hleft := hspans.call_other hcommand AnyCommand.confined_redo howns hid hfresh
      refine ⟨?_, ?_⟩
      · cases houtcome : (command.redo ed.session).outcome with
        | ok u =>
          rw [redo_of_ok hredo hcommand houtcome]
          exact hmoves hleft
        | error e =>
          rw [redo_of_error hredo hcommand houtcome]
          refine h.stays hcommand howns AnyCommand.confined_redo ?_
          rw [hredo, filter_cons_other hcommand hid]
          exact hleft
      · rintro _ ⟨⟩ hedits
        exact absurd (entity_of_edits hcommand hedits) hid

/-- Taking over a command does not touch what is in the history. -/
theorem register (h : ed.Tracks id P) (command : AnyCommand) :
    (ed.register command).2.Tracks id P ∧
      ed.commands.size ∉ ed.history.undo ++ ed.history.redo := by
  have hlt : ∀ cid ∈ ed.history.undo ++ ed.history.redo, cid < ed.commands.size := by
    intro cid hcid
    obtain ⟨command, hcommand, -⟩ := h.owns cid hcid
    exact (Array.getElem?_eq_some_iff.1 hcommand).1
  have hsame : ∀ cid ∈ ed.history.undo ++ ed.history.redo,
      (ed.register command).2.commands[cid]? = ed.commands[cid]? := by
    intro cid hcid
    rw [commands_register, if_neg (Nat.ne_of_lt (hlt cid hcid))]
  have hedits : ∀ cid ∈ ed.history.undo ++ ed.history.redo,
      (ed.register command).2.edits id cid = ed.edits id cid := by
    intro cid hcid
    rw [edits, edits, hsame cid hcid]
  refine ⟨⟨h.refusals, fun cid hcid => ?_, h.nodup, ?_⟩, fun hmem => Nat.lt_irrefl _ (hlt _ hmem)⟩
  · obtain ⟨other, hother, howns⟩ := h.owns cid hcid
    exact ⟨other, (hsame cid hcid).trans hother, howns⟩
  · rw [List.forall_mem_append] at hedits
    show (ed.register command).2.Spans id P (ed.history.undo.filter _) (ed.history.redo.filter _)
    rw [List.filter_congr hedits.1, List.filter_congr hedits.2]
    refine h.spans.congr rfl fun cid hcid => hsame cid ?_
    rw [← List.filter_append] at hcid
    exact List.mem_of_mem_filter hcid

/-- Executing a new command goes on along the track of the entity where it succeeds, provided that
it keeps the property. -/
theorem execute (h : ed.Tracks id P) (hcommand : ed.commands[cid]? = some command)
    (hfresh : cid ∉ ed.history.undo ++ ed.history.redo) (hready : command.Ready)
    (howns : command.Owns)
    (hafter : command.entity = id → (command.execute ed.session).outcome = .ok () →
      P ((ed.after cid (command.execute ed.session)).part id)) :
    (ed.execute cid).2.Tracks id P := by
  have hspans := h.spans
  have hfresh' :
      cid ∉ ed.history.undo.filter (ed.edits id) ++ ed.history.redo.filter (ed.edits id) :=
    notMem_filter_append hfresh
  cases houtcome : (command.execute ed.session).outcome with
  | error e =>
    rw [execute_of_error hcommand houtcome]
    refine h.stays hcommand howns AnyCommand.confined_execute ?_
    by_cases hid : command.entity = id
    · exact hspans.execute_own_error hcommand howns hid hfresh' hready houtcome
    · exact hspans.call_other hcommand AnyCommand.confined_execute howns hid hfresh'
  | ok u =>
    rw [execute_of_ok hcommand houtcome]
    have hleft : (ed.after cid (command.execute ed.session)).Spans id P
        ((cid :: ed.history.undo).filter (ed.edits id)) [] := by
      by_cases hid : command.entity = id
      · rw [filter_cons_own hcommand hid]
        exact hspans.execute_own hcommand howns hid hfresh' hready houtcome (hafter hid houtcome)
      · rw [filter_cons_other hcommand hid]
        have hother := hspans.call_other hcommand AnyCommand.confined_execute howns hid hfresh'
        exact ⟨hother.typed, hother.now, hother.past, [], .nil _⟩
    refine h.after hcommand howns AnyCommand.confined_execute (fun cid' hcid' => ?_) ?_
      (hleft.take _)
    · rw [History.executed, List.append_nil] at hcid'
      rcases List.mem_cons.1 (List.mem_of_mem_take hcid') with rfl | hold
      · exact .inl rfl
      · exact .inr (List.mem_append_left _ hold)
    · rw [History.executed, List.append_nil]
      refine List.Nodup.sublist (List.take_sublist _ _) (List.nodup_cons.2 ⟨?_, ?_⟩)
      · exact fun hmem => hfresh (List.mem_append_left _ hmem)
      · exact (List.nodup_append.1 h.nodup).1

end Tracks

end TransformStack.Editor
