import TransformStack.Proofs.Command.Lifecycle
import TransformStack.Proofs.Command.Rewriting

/-!
# Commands live

A command goes through its lifecycle along every row of calls. Three things can be said of it in
between: it has not written anything, or the value it wrote last stands, or it has taken its writes
back. Each call leads from one of them to another. The value that stands is always one that was
written to the store the life began on, as writing through comes to the same. Whatever mix of calls
the journal was built by, it leads to no store but that one, and if that store is typed it leads all
the way there.
-/

namespace TransformStack

/-! ## Values that stand -/

namespace Command

variable {c c' : Command} {value value' : Vector3} {s : Session} {before : Store}

/-- The writes of a command stand: its value was written to the op it remembers, and its journal
leads back as far as the store lets it, which is all the way if the store before was typed. -/
structure Stands (c : Command) (value : Vector3) (before after : Store) : Prop where
  writes : ∃ op journal, c.op = some op ∧ c.bare.Writes value before after op journal
  unwinds : c.journal.Unwinds (fun _ => True) after before
  back : before.TypedAt c.entity c.recipe.position → c.journal.TakesBack after before
  plain : c.recipe.Plain

/-- What stands of a command stands of one that has written the same. -/
theorem Stands.congr {after : Store} (h : c.Stands value before after)
    (hsame : c'.SameWrites c) : c'.Stands value before after := by
  obtain ⟨op, journal, hremembered, hwrites⟩ := h.writes
  refine ⟨⟨op, journal, hsame.op.trans hremembered, hsame.bare ▸ hwrites⟩,
    hsame.journal ▸ h.unwinds, fun htyped => ?_, hsame.recipe ▸ h.plain⟩
  rw [hsame.entity, hsame.recipe] at htyped
  exact hsame.journal ▸ h.back htyped

/-- The first write of a command is taken back by a store that is typed where the command writes. -/
theorem Writes.takesBack_of_typedAt {after : Store} {op : Op} {journal : Journal}
    (h : c.bare.Writes value before after op journal) (hfits : c.recipe.Fits)
    (htyped : before.TypedAt c.entity c.recipe.position) : journal.TakesBack after before := by
  have hat : c.bare.At c.entity c.recipe.position := by
    refine ⟨rfl, rfl, hfits, fun op hop => ?_⟩
    cases hop
  exact h.takesBack_of_typed htyped.order (htyped.values op (hat.ofOp? h))

/-- Where a value cannot be applied, the command stays, and so does the store if the order is typed
or no rollback failed. -/
theorem apply_of_error_of_back {e : EditError} (h : (c.apply value s).outcome = .error e)
    (hback : s.store.OrderTyped c.entity ∨
      ∀ e, LogEntry.rollbackFailed e ∉ (c.apply value s).session.log) :
    (c.apply value s).command = c ∧ (c.apply value s).session.store = s.store :=
  hback.elim (apply_of_error_of_typed h) (apply_of_error_of_log h)

/-- A command has written what another has, and notes that a value stands. -/
structure Notes (c' c : Command) (state : CommandState) (value : Vector3) : Prop where
  same : c'.SameWrites c
  state : c'.state = state
  newValue : c'.newValue = some value
  committedValue : c'.committedValue = some value

/-- What a command writes first stands. Where it cannot be written the command and the store stay,
and either the layer refuses something or nothing comes of the value. -/
theorem apply_first (hplain : c.recipe.Plain) (hjournal : c.journal = [])
    (hsame : ∀ after op journal,
      c.Writes value s.store after op journal ↔ c.bare.Writes value s.store after op journal)
    (hback : s.store.OrderTyped c.entity ∨
      ∀ e, LogEntry.rollbackFailed e ∉ (c.apply value s).session.log) :
    (c.apply value s).Meets (fun c' s' => c'.Stands value s.store s'.store)
      fun c' s' => c' = c ∧ s'.store = s.store ∧ (s.layer.refusals = {} →
        ∀ after op journal, ¬c.bare.Writes value s.store after op journal) := by
  cases happly : (c.apply value s).outcome with
  | error e =>
    obtain ⟨hcommand, hstore⟩ := apply_of_error_of_back happly hback
    refine .of_error happly ⟨hcommand, hstore, fun hfree after op journal hwrites => ?_⟩
    have hlayer : s.layer = { store := s.store } := by rw [← hfree]; rfl
    have hok := (apply_of_writes ((hsame after op journal).2 hwrites) hlayer).1
    cases happly.symm.trans hok
  | ok u =>
    obtain ⟨op, journal, hwrites, hcommand⟩ := apply_of_ok happly
    refine .of_ok happly ?_
    have hbare := (hsame _ _ _).1 hwrites
    rw [hcommand, hjournal, List.append_nil]
    exact ⟨⟨op, journal, rfl, hbare⟩, hbare.unwinds, hbare.takesBack_of_typedAt hplain.fits, hplain⟩

/-- Another value is written through, whatever the layer refuses. -/
theorem Stands.apply (h : c.Stands value before s.store) (value' : Vector3) :
    (c.apply value' s).Meets (fun c' s' => c'.Stands value' before s'.store) fun _ _ => False := by
  obtain ⟨op, journal, hop, hwrites⟩ := h.writes
  obtain ⟨after, journal', edit, hafter, hback, hthrough⟩ :=
    hwrites.write_through hop h.plain value'
  have hrun := hthrough (.start (s.signal .hold)) rfl
  rcases apply_cases c value' s with ⟨op', tx, hrun', happly⟩ | ⟨e, tx, hrun', happly⟩
  · obtain ⟨rfl, rfl⟩ : op = op' ∧ _ = tx := by simpa using hrun.symm.trans hrun'
    rw [happly]
    exact .of_ok rfl ⟨⟨op, journal', rfl, hafter⟩, hback.unwinds.append h.unwinds,
      fun htyped => hback.append (h.back htyped), h.plain⟩
  · cases hrun.symm.trans hrun'

end Command

/-! ## The stages of a life -/

namespace Lifecycle

open Command

variable {l : Lifecycle} {c : Command} {s : Session}

/-- The command that goes through the life, as it was made. -/
def command (l : Lifecycle) : Command :=
  { entity := l.entity, recipe := l.recipe, converter := l.converter }

/-- What is made of the first store is what the command writes to it. -/
theorem makes_iff {value : Vector3} {after : Store} :
    l.Makes value after ↔ ∃ op journal, l.command.Writes value l.initial after op journal := by
  constructor
  · rintro ⟨op, mid, stored, tx, hensure, hstored, hset, rfl⟩
    exact ⟨op, tx.journal, tx, write_eq_ok_iff.2 ⟨mid, stored, hensure, hstored, hset⟩, rfl, rfl⟩
  · rintro ⟨op, journal, tx, hrun, rfl, -⟩
    obtain ⟨mid, stored, htarget, hstored, hset⟩ := write_eq_ok_iff.1 hrun
    exact ⟨op, mid, stored, tx, htarget, hstored, hset, rfl⟩

/-- The command has not written anything. -/
structure Waits (l : Lifecycle) (c : Command) (s : Store) : Prop where
  stage : l.state = .unbound ∧ l.value = none ∨ l.state = .pending ∧ l.value.isSome
  value : c.newValue = l.value
  op : c.op = none
  journal : c.journal = []
  store : s = l.initial

/-- The last value of the command stands in the store. -/
structure Holds (l : Lifecycle) (c : Command) (s : Store) : Prop where
  stage : l.state.isApplied
  value : ∃ value, l.value = some value ∧ c.newValue = some value ∧
    c.committedValue = some value ∧ c.Stands value l.initial s

/-- The command has taken its writes back, and could write the last value again. -/
structure Rests (l : Lifecycle) (c : Command) (s : Store) : Prop where
  stage : l.state = .undone
  value : ∃ value op after journal, l.value = some value ∧ c.committedValue = some value ∧
    c.op = some op ∧ c.bare.Writes value l.initial after op journal
  journal : c.journal = []
  store : s = l.initial

/-- The command goes through the life. -/
structure Lives (l : Lifecycle) (c : Command) (s : Store) : Prop where
  command : c.bare = l.command
  plain : c.recipe.Plain
  state : c.state = l.state
  stage : l.Waits c s ∨ l.Holds c s ∨ l.Rests c s

/-- A command that goes through a life writes where the life says. -/
theorem Lives.typedAt {s : Store} (h : l.Lives c s) (htyped : l.Typed) :
    l.initial.TypedAt c.entity c.recipe.position := by
  have hentity : c.entity = l.entity := congrArg Command.entity h.command
  have hrecipe : c.recipe = l.recipe := congrArg Command.recipe h.command
  rw [hentity, hrecipe]
  exact htyped

/-- An undone command has taken its writes back. -/
theorem Lives.rests {s : Store} (h : l.Lives c s) (hundone : l.state = .undone) :
    l.Rests c s := by
  rcases h.stage with hwaits | hholds | hrests
  · rcases hwaits.stage with ⟨hstage, -⟩ | ⟨hstage, -⟩ <;> cases hstage.symm.trans hundone
  · have happlied := hholds.stage
    rw [hundone] at happlied
    cases happlied
  · exact hrests

/-- The value of an applied command stands. -/
theorem Lives.holds {s : Store} (h : l.Lives c s) (happlied : l.state.isApplied) :
    l.Holds c s := by
  rcases h.stage with hwaits | hholds | hrests
  · rcases hwaits.stage with ⟨hstage, -⟩ | ⟨hstage, -⟩ <;> rw [hstage] at happlied <;>
      cases happlied
  · exact hholds
  · rw [hrests.stage] at happlied
    cases happlied

/-- A command at a stage shows it. -/
theorem Lives.shows {s : Store} (h : l.Lives c s) : l.Shows c s := by
  refine ⟨h.state, fun happlied => ?_, fun hnot => ?_⟩
  · obtain ⟨value, hvalue, -, -, hstands⟩ := (h.holds happlied).value
    obtain ⟨op, journal, -, hwrites⟩ := hstands.writes
    exact ⟨value, hvalue, makes_iff.2 ⟨op, journal, h.command ▸ hwrites⟩⟩
  · rcases h.stage with hwaits | hholds | hrests
    · exact hwaits.store
    · rw [hholds.stage] at hnot
      cases hnot
    · exact hrests.store

/-! ## The calls -/

/-- A call leads to the next stage, or it has a reason to fail and leaves the stage. -/
def Goes (l : Lifecycle) (refusals : Refusals) (call : CommandCall) (done : Call Command) : Prop :=
  done.Meets (fun c s => ¬call.Rejected ∧ (l.next call).Lives c s.store)
    fun c s => (call.Rejected ∨ l.Hinders refusals call) ∧ l.Lives c s.store

/-- A call that does nothing leaves the stage. -/
theorem Lives.idle (h : l.Lives c s.store) {refusals : Refusals} {call : CommandCall}
    (haccepted : ¬call.Rejected) (hnext : l.next call = l) :
    l.Goes refusals call ⟨.ok (), c, s⟩ :=
  .of_ok rfl ⟨haccepted, hnext.symm ▸ h⟩

/-- A command that notes that its value stands is at a stage where it is applied. -/
theorem Lives.of_stands {value : Vector3} {s : Store} {c' : Command}
    (h : c.Stands value l.initial s) (hnotes : c'.Notes c l.state value)
    (hcommand : c.bare = l.command) (happlied : l.state.isApplied)
    (hvalue : l.value = some value) : l.Lives c' s := by
  have hholds : l.Holds c' s :=
    ⟨happlied, value, hvalue, hnotes.newValue, hnotes.committedValue, h.congr hnotes.same⟩
  exact ⟨hnotes.same.bare.trans hcommand, hnotes.same.recipe ▸ h.plain, hnotes.state,
    .inr (.inl hholds)⟩

/-- A call that writes first leads to a stage where the command is applied, or it is hindered. -/
theorem Lives.first (h : l.Lives c s.store) {value : Vector3} (hvalue : l.value = some value)
    (hstore : s.store = l.initial) (hjournal : c.journal = [])
    (hsame : ∀ after op journal,
      c.Writes value s.store after op journal ↔ c.bare.Writes value s.store after op journal)
    {call : CommandCall} {state : CommandState} (haccepted : ¬call.Rejected)
    (hnot : l.state.isApplied = false) (hnext : l.next call = { l with state })
    (happlied : state.isApplied) {done : Call Command}
    (hback : l.Typed ∨ ∀ e, LogEntry.rollbackFailed e ∉ done.session.log)
    (hfails : ∀ e, (c.apply value s).outcome = .error e → done = c.apply value s)
    (hmoves : (c.apply value s).outcome = .ok () → ∃ c',
      done = { c.apply value s with command := c' } ∧
        c'.Notes (c.apply value s).command state value) :
    l.Goes s.layer.refusals call done := by
  cases happly : (c.apply value s).outcome with
  | error e =>
    obtain rfl := hfails e happly
    have hback' := hback.imp_left fun htyped => hstore ▸ (h.typedAt htyped).order
    -- A first write that fails is rolled back, so the command goes on as it was before.
    obtain ⟨hkept, hstays, hnone⟩ := (apply_first h.plain hjournal hsame hback').error e happly
    refine .of_error happly ⟨.inr ⟨hnot, ?_, fun hfree value' after hvalue' hmakes => ?_⟩, ?_⟩
    · rw [hnext]
      exact happlied
    · obtain rfl : value = value' := Option.some.inj (hvalue.symm.trans hvalue')
      obtain ⟨op, journal, hwrites⟩ := makes_iff.1 hmakes
      rw [← hstore, ← h.command] at hwrites
      exact hnone hfree after op journal hwrites
    · rw [hkept, hstays]
      exact h
  | ok u =>
    obtain ⟨c', rfl, hnotes⟩ := hmoves happly
    have hback' := hback.imp_left fun htyped => hstore ▸ (h.typedAt htyped).order
    have hstands := (apply_first h.plain hjournal hsame hback').ok happly
    rw [hstore] at hstands
    obtain ⟨op, journal, hleft⟩ := exists_apply_command c value s
    refine .of_ok happly ⟨haccepted, ?_⟩
    rw [hnext]
    exact .of_stands hstands hnotes (by rw [hleft]; exact h.command) happlied hvalue

/-- A call that writes through leaves the command applied. -/
theorem Lives.through (h : l.Lives c s.store) (happlied : l.state.isApplied) {value : Vector3}
    {given : Command} (hgiven : given.SameWrites c) {refusals : Refusals} {call : CommandCall}
    (haccepted : ¬call.Rejected) (hnext : l.next call = { l with value := some value })
    {done : Call Command} (hmoves : (given.apply value s).outcome = .ok () → ∃ c',
      done = { given.apply value s with command := c' } ∧
        c'.Notes (given.apply value s).command l.state value) :
    l.Goes refusals call done := by
  obtain ⟨old, -, -, -, hstands⟩ := (h.holds happlied).value
  have hthrough := (hstands.congr hgiven).apply value
  obtain ⟨c', rfl, hnotes⟩ := hmoves hthrough.succeeds
  obtain ⟨op, journal, hleft⟩ := exists_apply_command given value s
  refine .of_ok hthrough.succeeds ⟨haccepted, ?_⟩
  rw [hnext]
  refine .of_stands (hthrough.ok hthrough.succeeds) hnotes ?_ happlied rfl
  rw [hleft]
  exact hgiven.bare.trans h.command

/-- Redoing an undone command writes its last value to the store the life began on. -/
theorem Lives.redo (h : l.Lives c s.store)
    (hback : l.Typed ∨ ∀ e, LogEntry.rollbackFailed e ∉ (c.redo s).session.log) :
    l.Goes s.layer.refusals .redo (c.redo s) := by
  by_cases hundone : l.state = .undone
  · have hrests := h.rests hundone
    have hstate : c.state = .undone := h.state.trans hundone
    obtain ⟨value, op, after, journal, hvalue, hcommitted, hop, hwrites⟩ := hrests.value
    rw [← hrests.store] at hwrites
    -- The command remembers its op, and writes through it what it would write without.
    have hagain := hwrites.of_bare hop h.plain.fits
    have hsame : ∀ after op journal, c.Writes value s.store after op journal ↔
        c.bare.Writes value s.store after op journal := by
      refine fun after' op' journal' => ⟨fun h' => ?_, fun h' => ?_⟩
      · obtain ⟨rfl, rfl, rfl⟩ := hagain.unique h'
        exact hwrites
      · obtain ⟨rfl, rfl, rfl⟩ := hwrites.unique h'
        exact hagain
    have hnext : l.next .redo = { l with state := .redone } := if_pos hundone
    refine h.first hvalue hrests.store hrests.journal hsame id (by rw [hundone]; rfl) hnext rfl
      hback (fun e => redo_of_error hstate hcommitted) fun hok => ?_
    obtain ⟨op', journal', hleft⟩ := exists_apply_command c value s
    exact ⟨_, redo_of_ok hstate hcommitted hok, ⟨rfl, rfl, rfl⟩, rfl, rfl,
      by rw [hleft]; exact hcommitted⟩
  · have hidle : c.redo s = ⟨.ok (), c, s⟩ :=
      redo_idle fun value hstate => hundone (h.state ▸ hstate.1)
    rw [hidle]
    exact h.idle id (if_neg hundone)

/-- Executing a command that waits writes its value, if it has one. -/
theorem Lives.execute_of_waits (h : l.Lives c s.store) (hwaits : l.Waits c s.store)
    (hback : l.Typed ∨ ∀ e, LogEntry.rollbackFailed e ∉ (c.execute s).session.log) :
    l.Goes s.layer.refusals .execute (c.execute s) := by
  rcases hwaits.stage with ⟨hunbound, -⟩ | ⟨hpending, hsome⟩
  · have hidle : c.execute s = ⟨.ok (), c, s⟩ := by
      unfold Command.execute
      rw [h.state, hunbound]
    rw [hidle]
    exact h.idle id (by simp only [next, hunbound])
  · obtain ⟨value, hvalue⟩ := Option.isSome_iff_exists.1 hsome
    have hnew : c.newValue = some value := hwaits.value.trans hvalue
    have hready : c.Ready :=
      ⟨h.state.trans hpending, ⟨value, hnew⟩, hwaits.op, hwaits.journal, h.plain.fits⟩
    have hsame : ∀ after op journal, c.Writes value s.store after op journal ↔
        c.bare.Writes value s.store after op journal :=
      fun after op journal =>
        ⟨fun h' => h'.congr rfl hwaits.op.symm, fun h' => h'.congr rfl hwaits.op⟩
    have hnext : l.next .execute = { l with state := .committed } := by
      simp only [next, hpending]
    refine h.first hvalue hwaits.store hwaits.journal hsame id (by rw [hpending]; rfl) hnext rfl
      hback (fun e => hready.execute_of_error hnew) fun hok => ?_
    exact ⟨_, hready.execute_of_ok hnew hok, ⟨rfl, rfl, rfl⟩, rfl, rfl, rfl⟩

/-- Executing writes first, writes through or redoes, as the stage has it. -/
theorem Lives.execute (h : l.Lives c s.store)
    (hback : l.Typed ∨ ∀ e, LogEntry.rollbackFailed e ∉ (c.execute s).session.log) :
    l.Goes s.layer.refusals .execute (c.execute s) := by
  rcases h.stage with hwaits | hholds | hrests
  · exact h.execute_of_waits hwaits hback
  · obtain ⟨value, hvalue, hnew, -, -⟩ := hholds.value
    have hstays : l.next .execute = l := by
      rcases CommandState.isApplied_iff.1 hholds.stage with hstate | hstate <;>
        simp only [next, hstate]
    have hnext : l.next .execute = { l with value := some value } := by
      rw [hstays, ← hvalue]
    refine h.through hholds.stage ⟨rfl, rfl, rfl⟩ id hnext fun hok => ?_
    have happlied : c.state.isApplied := h.state ▸ hholds.stage
    exact ⟨_, execute_of_ok ((toWrite?_of_applied happlied).trans hnew) hok, ⟨rfl, rfl, rfl⟩,
      (executedState_of_applied happlied).trans h.state, rfl, rfl⟩
  · have hredo : c.execute s = c.redo s := execute_of_undone (h.state.trans hrests.stage) s
    have hnext : l.next .execute = l.next .redo := by
      simp only [next, hrests.stage, if_true]
    rw [hredo] at hback ⊢
    have hgoes := h.redo hback
    unfold Goes Hinders at hgoes ⊢
    rwa [hnext]

/-- Undoing an applied command leads all the way back, if the store it began on is typed or the
store takes back whatever the journal holds. -/
theorem Lives.undo (h : l.Lives c s.store)
    (hback : l.Typed ∨ ∃ before, c.journal.TakesBack s.store before) :
    l.Goes s.layer.refusals .undo (c.undo s) := by
  cases happlied : l.state.isApplied with
  | false =>
    rw [Command.undo_idle (by rw [h.state, happlied])]
    exact h.idle id (if_neg (by rw [happlied]; exact Bool.false_ne_true))
  | true =>
    obtain ⟨value, hvalue, -, hcommitted, hstands⟩ := (h.holds happlied).value
    obtain ⟨op, journal, hop, hwrites⟩ := hstands.writes
    have hinitial : c.journal.TakesBack s.store l.initial := by
      rcases hback with htyped | ⟨before, hbefore⟩
      · exact hstands.back (h.typedAt htyped)
      · exact hstands.unwinds.eq_of_takesBack hbefore ▸ hbefore
    obtain ⟨s', hundo, hlayer⟩ := undo_of_takesBack (h.state ▸ happlied) hinitial
    have hnext : l.next .undo = { l with state := .undone } := if_pos happlied
    rw [hundo]
    refine .of_ok rfl ⟨id, ?_⟩
    rw [hnext]
    exact ⟨h.command, h.plain, rfl, .inr (.inr ⟨rfl,
      ⟨value, op, _, journal, hvalue, hcommitted, hop, hwrites⟩, rfl, Session.store_eq hlayer⟩)⟩

/-- A value is kept, written through or ignored, as the stage has it. -/
theorem Lives.set (h : l.Lives c s.store) (v : Vector3) :
    l.Goes s.layer.refusals (.set v) (c.set v s) := by
  cases hfinite : v.isFinite with
  | false =>
    rw [set_of_not_finite hfinite]
    exact .of_error rfl ⟨.inl hfinite, h⟩
  | true =>
    have haccepted : ¬(CommandCall.set v).Rejected := by
      intro hrejected
      cases hfinite.symm.trans hrejected
    -- A command that waits keeps the value, one that holds writes it through, one that rests
    -- ignores it.
    rcases h.stage with hwaits | hholds | hrests
    · have hwaiting : c.state = .unbound ∨ c.state = .pending :=
        hwaits.stage.imp (fun hstage => h.state.trans hstage.1) fun hstage => h.state.trans hstage.1
      have hnext : l.next (.set v) = { l with state := .pending, value := some v } := by
        rcases hwaits.stage with ⟨hstage, -⟩ | ⟨hstage, -⟩ <;>
          simp only [next, give, hfinite, hstage, if_true]
      rw [set_of_waiting hfinite hwaiting]
      refine .of_ok rfl ⟨haccepted, ?_⟩
      rw [hnext]
      exact ⟨h.command, h.plain, rfl,
        .inl ⟨.inr ⟨rfl, rfl⟩, rfl, hwaits.op, hwaits.journal, hwaits.store⟩⟩
    · have hgiven : { c with newValue := some v }.SameWrites c := ⟨rfl, rfl, rfl⟩
      have hnext : l.next (.set v) = { l with value := some v } := by
        rcases CommandState.isApplied_iff.1 hholds.stage with hstate | hstate <;>
          simp only [next, give, hfinite, hstate, if_true]
      refine h.through hholds.stage hgiven haccepted hnext fun hok => ?_
      obtain ⟨op', journal', hleft⟩ := exists_apply_command { c with newValue := some v } v s
      exact ⟨_, set_of_applied (h.state ▸ hholds.stage) hfinite hok, ⟨rfl, rfl, rfl⟩,
        by rw [hleft]; exact h.state, by rw [hleft], rfl⟩
    · rw [set_of_undone hfinite (h.state.trans hrests.stage)]
      exact h.idle haccepted (by simp only [next, give, hfinite, hrests.stage, if_true])

/-- The value of an attribute goes the way of the vector that it holds. -/
theorem Lives.setValue (h : l.Lives c s.store) (value : Value) :
    l.Goes s.layer.refusals (.setValue value) (c.setValue value s) := by
  unfold Command.setValue
  cases hempty : value.isEmpty with
  | true =>
    have haccepted : ¬(CommandCall.setValue value).Rejected := by
      rintro ⟨hnonempty, -⟩
      cases hempty.symm.trans hnonempty
    exact h.idle haccepted (if_pos hempty)
  | false =>
    rw [if_neg Bool.false_ne_true]
    cases hvector : value.toVector? with
    | none =>
      have hrejected : (CommandCall.setValue value).Rejected :=
        ⟨hempty, fun v hv => nomatch hvector.symm.trans hv⟩
      exact .of_error rfl ⟨.inl hrejected, h⟩
    | some v =>
      -- A vector goes the way of the value that it holds.
      have hrejected : (CommandCall.setValue value).Rejected ↔ (CommandCall.set v).Rejected := by
        simp [CommandCall.Rejected, hempty, hvector]
      have hnext : l.next (.setValue value) = l.next (.set v) := by
        simp [next, hempty, hvector]
      have hgoes := h.set v
      unfold Goes Hinders at hgoes ⊢
      rwa [hrejected, hnext]

/-- Every call leads to the next stage or leaves the stage, if the store the life began on is typed
or the store takes back what the call takes back. -/
theorem Lives.call (h : l.Lives c s.store) {call : CommandCall}
    (hback : l.Typed ∨ call.TakenBack c s) : l.Goes s.layer.refusals call (c.call s call) := by
  cases call with
  | set v => exact h.set v
  | setValue value => exact h.setValue value
  | execute => exact h.execute (hback.imp_right (·.rollback))
  | undo => exact h.undo (hback.imp_right (·.undo rfl))
  | redo => exact h.redo (hback.imp_right (·.rollback))

/-- A command that is at a stage follows the life from there on. -/
theorem Lives.follows {layer : Layer} (h : l.Lives c layer.store) (calls : List CommandCall) :
    c.Follows layer l calls := by
  induction calls generalizing c layer l with
  | nil => exact h.shows
  | cons call calls ih =>
    refine ⟨h.shows, fun hback => ?_⟩
    have hgoes : l.Goes layer.refusals call (c.call { layer } call) := Lives.call h hback
    exact hgoes.mono (fun c' s' ⟨haccepted, hlives⟩ => ⟨haccepted, ih hlives⟩)
      fun c' s' ⟨hreason, hlives⟩ => ⟨hreason, ih hlives⟩

end Lifecycle

/-! ## Offered and unbound commands -/

namespace Command

variable {c : Command}

/-- The life of a command from where it is now, on a store that it has not written to. -/
def life (c : Command) (initial : Store) : Lifecycle :=
  { initial, entity := c.entity, recipe := c.recipe, converter := c.converter, state := c.state,
    value := c.newValue }

/-- An offered command follows its life through all calls, and so does a command that is built
without a value for any entity with the recipe and the converter of an offered one. -/
theorem follows_life {view : StackView} {s : Store} {position : Position} {value : Vector3}
    (hoffered : view.offerAt s position value = .ok (.ok c)) (layer : Layer)
    (calls : List CommandCall) :
    c.Follows layer (c.life layer.store) calls ∧
      ∀ entity, let unbound : Command := { entity, recipe := c.recipe, converter := c.converter }
        unbound.Follows layer (unbound.life layer.store) calls := by
  have hready := (StackView.ready_of_offerAt hoffered).1
  have hplain := StackView.plain_of_offerAt hoffered
  constructor
  · have hwaits : (c.life layer.store).Waits c layer.store :=
      ⟨.inr ⟨hready.state, Option.isSome_iff_exists.2 hready.value⟩, rfl, hready.op,
        hready.journal, rfl⟩
    have hlives : (c.life layer.store).Lives c layer.store := ⟨rfl, hplain, rfl, .inl hwaits⟩
    exact hlives.follows calls
  · intro entity unbound
    have hwaits : (unbound.life layer.store).Waits unbound layer.store :=
      ⟨.inl ⟨rfl, rfl⟩, rfl, rfl, rfl, rfl⟩
    have hlives : (unbound.life layer.store).Lives unbound layer.store :=
      ⟨rfl, hplain, rfl, .inl hwaits⟩
    exact hlives.follows calls

/-- On a bare store the command that is offered for a translation is executed, given another value,
undone and redone, and shows the stages of its life. -/
theorem follows_life_of_bare :
    let c := AnyCommand.translation
    let l := c.life .bare
    let executed := c.call { layer := { store := .bare } } .execute
    let given := executed.command.call { layer := executed.session.layer } (.set .zero)
    let undone := given.command.call { layer := given.session.layer } .undo
    let redone := undone.command.call { layer := undone.session.layer } .redo
    StackView.offerAt ⟨default, .default⟩ .bare .translate .one = .ok (.ok c) ∧ l.Typed ∧
      (l.next .execute).Shows executed.command executed.session.layer.store ∧
      ((l.next .execute).next (.set .zero)).Shows given.command given.session.layer.store ∧
      (((l.next .execute).next (.set .zero)).next .undo).Shows undone.command
        undone.session.layer.store ∧
      ((((l.next .execute).next (.set .zero)).next .undo).next .redo).Shows redone.command
        redone.session.layer.store := by
  intro c l executed given undone redone
  have hoffered : StackView.offerAt ⟨default, .default⟩ .bare .translate .one = .ok (.ok c) := rfl
  have htyped : l.Typed := Store.wellTyped_bare.typedAt _ _
  have hfollows : c.Follows { store := .bare } l [.execute, .set .zero, .undo, .redo] :=
    (follows_life hoffered { store := .bare } _).1
  have hexecuted := hfollows.next (.inl htyped) (rfl : _ = executed) (by decide +kernel)
  have hgiven := hexecuted.next (.inl (htyped.next _)) (rfl : _ = given) (by decide +kernel)
  have hundone := hgiven.next (.inl ((htyped.next _).next _)) (rfl : _ = undone)
    (by decide +kernel)
  have hredone := hundone.next (.inl (((htyped.next _).next _).next _)) (rfl : _ = redone)
    (by decide +kernel)
  exact ⟨hoffered, htyped, hexecuted.shows, hgiven.shows, hundone.shows, hredone.shows⟩

end Command

end TransformStack
